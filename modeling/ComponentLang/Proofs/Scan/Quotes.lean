import ComponentLang.Scan.Piece

namespace ComponentLang.Scan

/-- What parts a line in two right behind the first place where it `ends`, or
nothing if it never does. -/
def Cuts (ends : List Char → Prop) (line : List Char) :
    Option (List Char × List Char) → Prop
  | some (front, left) => front ++ left = line ∧ ends front ∧
      ∀ shorter, shorter <+: front → ends shorter → shorter = front
  | none => ∀ front, front <+: line → ¬ends front

section Cuts

variable {ends : List Char → Prop}

theorem Cuts.append {before line : List Char}
    {parts : Option (List Char × List Char)} (cuts : Cuts ends line parts)
    (goes : ∀ front, front <+: before → ¬ends front)
    (same : ∀ part, part <+: line → (ends (before ++ part) ↔ ends part)) :
    Cuts ends (before ++ line)
      (parts.map fun (front, left) => (before ++ front, left)) := by
  -- A beginning of the whole that ends reaches beyond what stands before.
  have beyond {front : List Char} (within : front <+: before ++ line)
      (done : ends front) :
      ∃ part, front = before ++ part ∧ part <+: line ∧ ends part := by
    rcases List.prefix_or_prefix_of_prefix within (List.prefix_append before line)
      with short | ⟨part, rfl⟩
    · exact absurd done (goes front short)
    · have rest := (List.prefix_append_right_inj before).mp within
      exact ⟨part, rfl, rest, (same part rest).mp done⟩
  cases parts with
  | none =>
      intro front within done
      obtain ⟨part, -, rest, here⟩ := beyond within done
      exact cuts part rest here
  | some parts =>
      obtain ⟨front, left⟩ := parts
      obtain ⟨rfl, here, first⟩ := cuts
      have within := List.prefix_append front left
      refine ⟨List.append_assoc .., (same front within).mpr here, ?_⟩
      intro shorter short done
      have reach : before ++ front <+: before ++ (front ++ left) :=
        (List.prefix_append_right_inj before).mpr within
      obtain ⟨part, rfl, -, part_ends⟩ := beyond (short.trans reach) done
      rw [first part ((List.prefix_append_right_inj before).mp short) part_ends]

theorem Cuts.unique {line : List Char}
    {parts others : Option (List Char × List Char)} (cuts : Cuts ends line parts)
    (cuts_too : Cuts ends line others) : parts = others := by
  match parts, others with
  | none, none => rfl
  | none, some (front, left) =>
      obtain ⟨rfl, here, -⟩ := cuts_too
      exact absurd here (cuts front (List.prefix_append front left))
  | some (front, left), none =>
      obtain ⟨rfl, here, -⟩ := cuts
      exact absurd here (cuts_too front (List.prefix_append front left))
  | some (front, left), some (other, behind) =>
      obtain ⟨rfl, here, first⟩ := cuts
      obtain ⟨whole, there, first_too⟩ := cuts_too
      have fronts : front = other := by
        rcases List.prefix_or_prefix_of_prefix (List.prefix_append front left)
          (whole ▸ List.prefix_append other behind) with short | short
        · exact first_too front short here
        · exact (first other short there).symm
      subst fronts
      rw [List.append_cancel_left whole]

theorem Cuts.behind {line front left : List Char}
    (cuts : Cuts ends line (some (front, left))) (other : List Char) :
    Cuts ends (front ++ other) (some (front, other)) :=
  ⟨rfl, cuts.2⟩

theorem Cuts.length_le {line front left : List Char}
    (cuts : Cuts ends line (some (front, left))) : left.length ≤ line.length := by
  obtain ⟨rfl, -⟩ := cuts
  exact (List.suffix_append front left).length_le

end Cuts

/-! The end of a quoted string. -/

def backslashesAtEnd (chars : List Char) : Nat :=
  (chars.reverse.takeWhile (· == '\\')).length

/-- Whether a quote comes last that an even number of backslashes precedes. -/
def EndsQuote (front : List Char) : Prop :=
  ∃ inner, front = inner ++ ['"'] ∧ backslashesAtEnd inner % 2 = 0

theorem not_endsQuote_nil : ¬EndsQuote [] := by
  rintro ⟨inner, same, -⟩
  exact absurd same.symm
    (List.append_ne_nil_of_right_ne_nil _ (List.cons_ne_nil _ _))

theorem endsQuote_concat_iff (inner : List Char) (char : Char) :
    EndsQuote (inner ++ [char]) ↔
      char = '"' ∧ backslashesAtEnd inner % 2 = 0 := by
  constructor
  · rintro ⟨others, same, even⟩
    obtain ⟨rfl, last⟩ := List.append_inj' same rfl
    exact ⟨List.head_eq_of_cons_eq last, even⟩
  · rintro ⟨rfl, even⟩
    exact ⟨inner, rfl, even⟩

/-- Pairs of backslashes further to the front are not waiting for anything. -/
theorem backslashesAtEnd_append {before : List Char}
    (even : backslashesAtEnd before % 2 = 0) (inner : List Char) :
    backslashesAtEnd (before ++ inner) % 2 = backslashesAtEnd inner % 2 := by
  unfold backslashesAtEnd at even ⊢
  rw [List.reverse_append, List.takeWhile_append]
  split
  · next all =>
      rw [List.length_append, Nat.add_mod, even, all]
      simp
  · rfl

theorem endsQuote_append_iff {before : List Char}
    (even : backslashesAtEnd before % 2 = 0) (goes : ¬EndsQuote before)
    (part : List Char) : EndsQuote (before ++ part) ↔ EndsQuote part := by
  rcases List.eq_nil_or_concat part with rfl | ⟨inner, char, rfl⟩
  · rw [List.append_nil]
    exact iff_of_false goes not_endsQuote_nil
  · rw [List.concat_eq_append, ← List.append_assoc, endsQuote_concat_iff,
      endsQuote_concat_iff, backslashesAtEnd_append even]

theorem endsQuote_singleton_iff (char : Char) :
    EndsQuote [char] ↔ char = '"' :=
  (endsQuote_concat_iff [] char).trans (and_iff_left rfl)

/-- The character behind a backslash ends nothing, whatever it is. -/
theorem not_endsQuote_of_escaped {front : List Char} {char : Char}
    (within : front <+: ['\\', char]) : ¬EndsQuote front := by
  rcases List.prefix_cons_iff.mp within with rfl | ⟨others, rfl, rest⟩
  · exact not_endsQuote_nil
  · rcases List.prefix_cons_iff.mp rest with rfl | ⟨behind, rfl, nothing⟩
    · exact fun ends => absurd ((endsQuote_singleton_iff _).mp ends) (by decide)
    · obtain rfl := List.prefix_nil.mp nothing
      exact fun ends =>
        absurd ((endsQuote_concat_iff ['\\'] char).mp ends).2 (by decide)

theorem splitQuote_cuts (line : List Char) :
    Cuts EndsQuote line (splitQuote line) := by
  fun_induction splitQuote line with
  | case1 =>
      intro front within
      obtain rfl := List.prefix_nil.mp within
      exact not_endsQuote_nil
  | case2 rest =>
      refine ⟨rfl, (endsQuote_singleton_iff _).mpr rfl, ?_⟩
      intro shorter short ends
      rcases List.prefix_cons_iff.mp short with rfl | ⟨others, rfl, nothing⟩
      · exact absurd ends not_endsQuote_nil
      · rw [List.prefix_nil.mp nothing]
  | case3 char rest induction =>
      have even : backslashesAtEnd ['\\', char] % 2 = 0 := by
        unfold backslashesAtEnd
        by_cases backslash : char = '\\' <;> simp [backslash]
      refine induction.append (fun front => not_endsQuote_of_escaped) ?_
      exact fun part _ => endsQuote_append_iff even
        (not_endsQuote_of_escaped List.prefix_rfl) part
  | case4 char rest notQuote notEscape induction =>
      by_cases backslash : char = '\\'
      · -- It comes last, with nothing behind it that it could escape.
        subst backslash
        cases rest with
        | nil =>
            exact fun front within => not_endsQuote_of_escaped
              (within.trans (List.prefix_append ['\\'] ['"']))
        | cons next rest => exact absurd rfl (notEscape next rest rfl)
      · have even : backslashesAtEnd [char] % 2 = 0 := by
          simp [backslashesAtEnd, backslash]
        have goes : ¬EndsQuote [char] :=
          fun ends => notQuote ((endsQuote_singleton_iff char).mp ends)
        refine induction.append ?_ fun part _ =>
          endsQuote_append_iff even goes part
        intro front within
        rcases List.prefix_cons_iff.mp within with rfl | ⟨behind, rfl, nothing⟩
        · exact not_endsQuote_nil
        · rwa [List.prefix_nil.mp nothing]

theorem splitQuote_front {line front left : List Char}
    (found : splitQuote line = some (front, left)) (other : List Char) :
    splitQuote (front ++ other) = some (front, other) := by
  have cuts := splitQuote_cuts line
  rw [found] at cuts
  exact (splitQuote_cuts _).unique (cuts.behind other)

/-! The end of a string of several lines. -/

def tripleQuote : List Char :=
  ['"', '"', '"']

def EndsBlock (front : List Char) : Prop :=
  tripleQuote <:+ front

theorem cuts_endsBlock_none_iff {line : List Char} :
    Cuts EndsBlock line none ↔ ¬tripleQuote <:+: line := by
  rw [List.infix_iff_suffix_prefix]
  constructor
  · rintro cuts ⟨front, ends, within⟩
    exact cuts front within ends
  · intro absent front within ends
    exact absent ⟨front, ends, within⟩

theorem splitTripleQuote_cuts (line : List Char) :
    Cuts EndsBlock line (splitTripleQuote line) := by
  fun_induction splitTripleQuote line with
  | case1 => exact cuts_endsBlock_none_iff.mpr (by decide)
  | case2 rest =>
      refine ⟨rfl, List.suffix_rfl, ?_⟩
      intro shorter short ends
      exact short.eq_of_length_le ends.length_le
  | case3 char rest notTriple induction =>
      have goes : ∀ front, front <+: [char] → ¬EndsBlock front := by
        intro front within ends
        have size := Nat.le_trans ends.length_le within.length_le
        simp [tripleQuote] at size
      refine induction.append goes fun part within => ?_
      unfold EndsBlock
      rw [List.singleton_append, List.suffix_cons_iff]
      refine or_iff_right ?_
      rintro ⟨⟩
      obtain ⟨further, rfl⟩ := within
      exact notTriple further rfl rfl

theorem splitTripleQuote_front {line front left : List Char}
    (found : splitTripleQuote line = some (front, left)) (other : List Char) :
    splitTripleQuote (front ++ other) = some (front, other) := by
  have cuts := splitTripleQuote_cuts line
  rw [found] at cuts
  exact (splitTripleQuote_cuts _).unique (cuts.behind other)

end ComponentLang.Scan
