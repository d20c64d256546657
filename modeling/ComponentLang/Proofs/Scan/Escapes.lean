import ComponentLang.Proofs.Scan.Quotes

namespace ComponentLang.Scan

/-- Whether a quote is at `place` behind an even number of backslashes, not
counting those in front of `start`. -/
def closesAt (chars : List Char) (start place : Nat) : Bool :=
  chars[place]? == some '"' &&
    backslashesAtEnd (chars.extract start place) % 2 == 0

/-- The first such place from `start` on. -/
def closingQuote? (chars : List Char) (start : Nat) : Option Nat :=
  (List.range' start (chars.length - start)).find? (closesAt chars start)

/-- Reads what is left of a line from `place` on. `escaped` tells whether the
next character is to be stepped over. -/
def reachFrom (escaped : Bool) (place : Nat) : List Char → Option Nat
  | [] => none
  | char :: rest =>
      if escaped then reachFrom false (place + 1) rest
      else if char = '"' then some place
      else reachFrom (char == '\\') (place + 1) rest

/-- The first quote that a reader comes to who begins at `start`. -/
def reachedQuote? (chars : List Char) (start : Nat) : Option Nat :=
  reachFrom false start (chars.drop start)

theorem map_succ_reachFrom (place : Nat) (chars : List Char) :
    (reachFrom false place chars).map (· + 1) =
      (splitQuote chars).map fun parts => place + parts.1.length := by
  fun_induction splitQuote chars generalizing place with
  | case1 => rfl
  | case2 rest => rfl
  | case3 char rest induction =>
      have steps : reachFrom false place ('\\' :: char :: rest) =
          reachFrom false (place + 2) rest := rfl
      rw [steps, induction, Option.map_map]
      refine Option.map_congr fun parts _ => ?_
      simp only [Function.comp_apply, List.length_cons]
      omega
  | case4 char rest unquoted unpaired induction =>
      by_cases backslash : char = '\\'
      · subst backslash
        cases rest with
        | nil => rfl
        | cons next rest => exact absurd rfl (unpaired next rest rfl)
      · have step : reachFrom false place (char :: rest) =
            reachFrom false (place + 1) rest := by
          rw [reachFrom, if_neg Bool.false_ne_true, if_neg unquoted,
            beq_eq_false_iff_ne.mpr backslash]
        rw [step, induction, Option.map_map]
        refine Option.map_congr fun parts _ => ?_
        simp only [Function.comp_apply, List.length_cons]
        omega

/-! The run of backslashes. -/

theorem extract_succ {chars : List Char} {start place : Nat} {char : Char}
    (reached : start ≤ place) (there : chars[place]? = some char) :
    chars.extract start (place + 1) = chars.extract start place ++ [char] := by
  rw [List.extract, Nat.succ_sub reached, List.take_add_one,
    List.getElem?_drop, Nat.add_sub_cancel' reached, there]
  rfl

theorem extract_append_drop (chars : List Char) {start place : Nat}
    (reached : start ≤ place) :
    chars.extract start place ++ chars.drop place = chars.drop start := by
  have later := List.take_append_drop (place - start) (chars.drop start)
  rwa [List.drop_drop, Nat.add_sub_cancel' reached] at later

theorem closesAt_iff {chars : List Char} {start place : Nat}
    (reached : start ≤ place) (within : place < chars.length) :
    closesAt chars start place ↔
      EndsQuote (chars.extract start (place + 1)) := by
  rw [extract_succ reached (List.getElem?_eq_getElem within),
    endsQuote_concat_iff, closesAt, List.getElem?_eq_getElem within]
  simp

theorem exists_of_prefix {chars front : List Char} {start : Nat}
    (within : front <+: chars.drop start) (nonempty : front ≠ []) :
    ∃ place, start ≤ place ∧ place < chars.length ∧
      front = chars.extract start (place + 1) := by
  have positive := List.length_pos_iff.mpr nonempty
  have short := within.length_le
  rw [List.length_drop] at short
  refine ⟨start + (front.length - 1), Nat.le_add_right _ _, by omega, ?_⟩
  have size : start + (front.length - 1) + 1 - start = front.length := by omega
  rw [List.extract, size]
  exact List.prefix_iff_eq_take.mp within

theorem closingQuote?_cuts (chars : List Char) (start : Nat) :
    Cuts EndsQuote (chars.drop start)
      ((closingQuote? chars start).map fun place =>
        (chars.extract start (place + 1), chars.drop (place + 1))) := by
  have ends_at {front : List Char} (within : front <+: chars.drop start)
      (ends : EndsQuote front) : ∃ place, start ≤ place ∧
        place < chars.length ∧ closesAt chars start place ∧
          front = chars.extract start (place + 1) := by
    have nonempty : front ≠ [] := by
      rintro rfl
      exact not_endsQuote_nil ends
    obtain ⟨place, reached, inside, front_eq⟩ := exists_of_prefix within nonempty
    rw [front_eq] at ends
    exact ⟨place, reached, inside, (closesAt_iff reached inside).mpr ends,
      front_eq⟩
  cases found : closingQuote? chars start with
  | none =>
      intro front within ends
      obtain ⟨place, reached, inside, closes, -⟩ := ends_at within ends
      have open_there := List.find?_range'_eq_none.mp found place reached
        (by omega)
      rw [closes] at open_there
      cases open_there
  | some place =>
      obtain ⟨closes, among, earlier⟩ := List.find?_range'_eq_some.mp found
      obtain ⟨reached, below⟩ := List.mem_range'_1.mp among
      have inside : place < chars.length := by omega
      refine ⟨extract_append_drop chars (Nat.le_succ_of_le reached),
        (closesAt_iff reached inside).mp closes, ?_⟩
      intro shorter short ends
      have part := extract_append_drop chars (Nat.le_succ_of_le reached)
      obtain ⟨other, from_start, within, closes_too, rfl⟩ :=
        ends_at (short.trans ⟨_, part⟩) ends
      have not_before : ¬other < place := by
        intro before
        have open_there := earlier other from_start before
        rw [closes_too] at open_there
        cases open_there
      have not_behind : other ≤ place := by
        have sizes := short.length_le
        simp only [List.extract, List.length_take, List.length_drop] at sizes
        omega
      rw [Nat.le_antisymm not_behind (Nat.le_of_not_lt not_before)]

theorem splitQuote_drop (chars : List Char) (start : Nat) :
    splitQuote (chars.drop start) =
      (closingQuote? chars start).map fun place =>
        (chars.extract start (place + 1), chars.drop (place + 1)) :=
  (splitQuote_cuts _).unique (closingQuote?_cuts chars start)

/-- A string that is read from `start` on closes where the parity of the
backslashes says, where a reader stops who steps over what is escaped, and
where the scan cuts its line. -/
theorem escapes_told_by_parity (chars : List Char) (start : Nat) :
    closingQuote? chars start = reachedQuote? chars start ∧
      splitQuote (chars.drop start) =
        (closingQuote? chars start).map fun place =>
          (chars.extract start (place + 1), chars.drop (place + 1)) := by
  refine ⟨?_, splitQuote_drop chars start⟩
  have behind : (closingQuote? chars start).map (· + 1) =
      (reachedQuote? chars start).map (· + 1) := by
    rw [reachedQuote?, map_succ_reachFrom, splitQuote_drop, Option.map_map]
    refine Option.map_congr fun place found => ?_
    obtain ⟨-, among, -⟩ := List.find?_range'_eq_some.mp found
    obtain ⟨reached, below⟩ := List.mem_range'_1.mp among
    simp only [Function.comp_apply, List.extract, List.length_take,
      List.length_drop]
    omega
  exact (Option.map_inj_right fun _ _ => Nat.succ.inj).mp behind

/-- A backslash in front of the string escapes nothing in it. -/
example : closingQuote? ['\\', '"'] 0 = none ∧
    closingQuote? ['\\', '"'] 1 = some 1 := by
  decide

end ComponentLang.Scan
