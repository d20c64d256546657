import Mathlib.Data.Finset.Sort
import Mathlib.Data.List.Destutter
import Mathlib.Data.List.TakeWhile
import Mathlib.Data.Prod.Lex
import ComponentLang.Diagnostic.Suggestion
import ComponentLang.Proofs.Symbol.Tables
import ComponentLang.Proofs.Text.ByteOrder
import ComponentLang.Proofs.Text.EditDistance

namespace ComponentLang

theorem Text.trimBlanks_eq_nil_iff {chars : List Char} :
    trimBlanks chars = [] ↔ ∀ char ∈ chars, isBlank char := by
  rw [trimBlanks, List.reverse_eq_nil_iff, List.dropWhile_eq_nil_iff]
  simp only [List.mem_reverse]
  constructor
  · intro behind char member
    rw [← List.takeWhile_append_dropWhile (p := isBlank) (l := chars),
      List.mem_append] at member
    rcases member with front | back
    · exact List.mem_takeWhile_imp front
    · exact behind char back
  · intro blank char member
    exact blank char ((List.dropWhile_sublist _).subset member)

theorem nodup_eraseDups {α : Type} [DecidableEq α] (elements : List α) :
    elements.eraseDups.Nodup := by
  induction elements using List.reverseRecOn with
  | nil => exact .nil
  | append_singleton front last induction =>
      rw [List.eraseDups, eraseDupsBy_concat]
      split
      · exact induction
      · next fresh =>
          refine List.nodup_append_comm.mp (induction.cons ?_)
          intro member
          exact fresh
            (List.any_eq_true.mpr ⟨last, member, beq_self_eq_true last⟩)

namespace Suggestion

variable {word : List Char}

/-- What decides between two candidates: how many edits they are away, then how
many bytes they have, then the bytes. -/
def rank (word : List Char) (text : String) : Nat ×ₗ Nat ×ₗ List Nat :=
  toLex (Text.editDistance word text.toList,
    toLex (text.utf8ByteSize, Text.bytes text))

theorem rank_injective (word : List Char) : Function.Injective (rank word) := by
  intro first second same
  have inner := (Prod.mk.inj (toLex_inj.mp same)).2
  exact Text.bytes_injective (Prod.mk.inj (toLex_inj.mp inner)).2

/-- The first text is as good a suggestion for the word as the second. -/
def Nearer (word : List Char) (first second : String) : Prop :=
  rank word first ≤ rank word second

instance : DecidableRel (Nearer word) := fun first second =>
  inferInstanceAs (Decidable (rank word first ≤ rank word second))

instance : IsTrans String (Nearer word) :=
  ⟨fun _ _ _ front back => le_trans (α := Nat ×ₗ Nat ×ₗ List Nat) front back⟩

instance : Std.Total (Nearer word) :=
  ⟨fun first second => le_total (rank word first) (rank word second)⟩

instance : Std.Antisymm (Nearer word) :=
  ⟨fun _ _ front back => rank_injective word (le_antisymm front back)⟩

def choices (word : List Char) (candidates : Finset String) : Finset String :=
  candidates.filter fun text =>
    text ≠ "" ∧ text.toList ≠ word ∧
      Text.editDistance word text.toList ≤ bound word.length

/-! Matches and their texts. -/

namespace Match

def ofText (word : List Char) (text : String) : Match where
  distance := Text.editDistance word text.toList
  text

def key (found : Match) : Nat ×ₗ Nat ×ₗ List Nat :=
  toLex (found.distance,
    toLex (found.text.utf8ByteSize, Text.bytes found.text))

theorem key_ofText (word : List Char) (text : String) :
    (ofText word text).key = rank word text := rfl

theorem le_iff {first second : Match} :
    first.le second ↔ first.key ≤ second.key := by
  have by_bytes : Text.bytes first.text ≤ Text.bytes second.text ↔
      ¬second.text < first.text := by
    rw [← not_lt, Text.bytes_lt_iff]
  rw [key, key, Prod.Lex.toLex_le_toLex, Prod.Lex.toLex_le_toLex, by_bytes, le]
  split
  · next apart => simp [apart]
  · next near =>
      split
      · next longer => simp [not_not.mp near, longer]
      · next same => simp [not_not.mp near, not_not.mp same]

theorem pairwise_sort (matched : List Match) :
    (StableSort.sort le matched).Pairwise fun first second =>
      first.key ≤ second.key := by
  have trans : ∀ first second third : Match,
      first.le second → second.le third → first.le third := by
    intro first second third front back
    exact le_iff.mpr (le_trans (le_iff.mp front) (le_iff.mp back))
  have total : ∀ first second : Match, first.le second ∨ second.le first := by
    intro first second
    rw [le_iff, le_iff]
    exact le_total first.key second.key
  exact (StableSort.pairwise_sort trans total matched).imp le_iff.mp

end Match

theorem mem_nearby_iff {candidates : List String} {found : Match} :
    found ∈ nearby word candidates ↔
      found.text ∈ choices word candidates.toFinset ∧
        Match.ofText word found.text = found := by
  have as_text : (∃ text ∈ choices word candidates.toFinset,
        Match.ofText word text = found) ↔
      found.text ∈ choices word candidates.toFinset ∧
        Match.ofText word found.text = found := by
    constructor
    · rintro ⟨text, chosen, rfl⟩
      exact ⟨chosen, rfl⟩
    · exact fun ⟨chosen, found_eq⟩ => ⟨found.text, chosen, found_eq⟩
  rw [← as_text]
  simp only [nearby, choices, List.mem_filterMap, Finset.mem_filter,
    List.mem_toFinset, and_assoc]
  refine exists_congr fun text => and_congr_right fun listed => ?_
  have barred_iff : (text.isEmpty || text.toList == word) ↔
      text = "" ∨ text.toList = word := by
    rw [Bool.or_eq_true, String.isEmpty_iff, beq_iff_eq]
  split
  · next barred =>
      rcases barred_iff.mp barred with empty | same
      · simp [empty]
      · simp [same]
  · next free =>
      obtain ⟨nonempty, differs⟩ := not_or.mp (mt barred_iff.mpr free)
      split
      · next near => simp [nonempty, differs, near, Match.ofText]
      · next far => simp [far]

/-! The texts of the sorted matches, with or without repetitions. -/

section Texts

variable {candidates : List String} {matched : List Match}

theorem pairwise_texts
    (all_near : ∀ found ∈ matched, found ∈ nearby word candidates) :
    ((StableSort.sort Match.le matched).map Match.text).Pairwise
      (Nearer word) := by
  have key_eq {found : Match}
      (member : found ∈ StableSort.sort Match.le matched) :
      found.key = rank word found.text := by
    have near := all_near found (StableSort.mem_sort.mp member)
    rw [← Match.key_ofText, (mem_nearby_iff.mp near).2]
  rw [List.pairwise_map]
  refine (Match.pairwise_sort matched).imp_of_mem ?_
  intro first second first_found second_found before
  rwa [Nearer, ← key_eq first_found, ← key_eq second_found]

theorem mem_texts_iff
    (same : ∀ found, found ∈ matched ↔ found ∈ nearby word candidates)
    {text : String} :
    text ∈ (StableSort.sort Match.le matched).map Match.text ↔
      text ∈ choices word candidates.toFinset := by
  simp only [List.mem_map, StableSort.mem_sort, same, mem_nearby_iff]
  constructor
  · rintro ⟨found, ⟨chosen, -⟩, rfl⟩
    exact chosen
  · exact fun chosen => ⟨Match.ofText word text, ⟨chosen, rfl⟩, rfl⟩

/-- A list of all choices, each listed once and nearer ones first, is the sorted
set. -/
theorem sort_choices {texts : List String} (distinct : texts.Nodup)
    (ordered : texts.Pairwise (Nearer word))
    (listed : ∀ text,
      text ∈ texts ↔ text ∈ choices word candidates.toFinset) :
    (choices word candidates.toFinset).sort (Nearer word) = texts := by
  have same : choices word candidates.toFinset = texts.toFinset := by
    ext text
    rw [List.mem_toFinset, listed]
  rw [same]
  exact (List.toFinset_sort (Nearer word) distinct).mpr ordered

/-- Repetitions may be taken out before the matches are sorted. -/
theorem texts_sort_eraseDups (word : List Char) (candidates : List String) :
    (StableSort.sort Match.le (nearby word candidates).eraseDups).map
        Match.text =
      (choices word candidates.toFinset).sort (Nearer word) := by
  have same (found : Match) : found ∈ (nearby word candidates).eraseDups ↔
      found ∈ nearby word candidates :=
    List.mem_eraseDups
  refine (sort_choices ?_ (pairwise_texts fun found => (same found).mp)
    fun text => mem_texts_iff same).symm
  refine List.Nodup.map_on ?_
    ((StableSort.sort_perm _ _).nodup_iff.mpr (nodup_eraseDups _))
  intro first first_found second second_found text_eq
  have first_near := (same first).mp (StableSort.mem_sort.mp first_found)
  have second_near := (same second).mp (StableSort.mem_sort.mp second_found)
  rw [← (mem_nearby_iff.mp first_near).2, ← (mem_nearby_iff.mp second_near).2,
    text_eq]

/-- They may as well be taken out afterwards, when equal texts stand side by
side. -/
theorem destutter_texts (word : List Char) (candidates : List String) :
    ((StableSort.sort Match.le (nearby word candidates)).map
        Match.text).destutter (· ≠ ·) =
      (choices word candidates.toFinset).sort (Nearer word) := by
  have ordered : ((StableSort.sort Match.le (nearby word candidates)).map
      Match.text).Pairwise (Nearer word) := pairwise_texts fun _ => id
  rw [ordered.destutter_eq_dedup]
  refine (sort_choices (List.nodup_dedup _)
    (ordered.sublist (List.dedup_sublist _)) fun text => ?_).symm
  rw [List.mem_dedup, mem_texts_iff fun _ => Iff.rfl]

end Texts

theorem suggest_of_trimBlanks_eq_nil {needle : String}
    (blank : Text.trimBlanks needle.toList = []) (candidates : List String) :
    suggest needle candidates = [] := by
  rw [suggest, blank]
  rfl

theorem suggest_of_trimBlanks_ne_nil {needle : String}
    (worded : Text.trimBlanks needle.toList ≠ []) (candidates : List String) :
    suggest needle candidates =
      ((choices (Text.trimBlanks needle.toList) candidates.toFinset).sort
        (Nearer (Text.trimBlanks needle.toList))).take 3 := by
  rw [suggest, if_neg (mt List.isEmpty_iff.mp worded), List.map_take,
    texts_sort_eraseDups]

theorem nodup_suggest (needle : String) (candidates : List String) :
    (suggest needle candidates).Nodup := by
  by_cases blank : Text.trimBlanks needle.toList = []
  · rw [suggest_of_trimBlanks_eq_nil blank]
    exact .nil
  · rw [suggest_of_trimBlanks_ne_nil blank]
    exact (Finset.sort_nodup _ _).sublist (List.take_sublist _ _)

theorem suggest_congr (needle : String) {candidates others : List String}
    (same : ∀ text, text ∈ others ↔ text ∈ candidates) :
    suggest needle others = suggest needle candidates := by
  have set_eq : others.toFinset = candidates.toFinset := by
    ext text
    rw [List.mem_toFinset, List.mem_toFinset, same]
  by_cases blank : Text.trimBlanks needle.toList = []
  · rw [suggest_of_trimBlanks_eq_nil blank, suggest_of_trimBlanks_eq_nil blank]
  · rw [suggest_of_trimBlanks_ne_nil blank, set_eq,
      suggest_of_trimBlanks_ne_nil blank]

/-- The suggestions for a word are the first three choices: those candidates
that are not empty and not the word, and that the edit distance, which is the
least number of edits, does not rule out. Fewer edits come first, then fewer
bytes, then lesser ones. A needle that is all blank has none. They are distinct,
and only the set of the candidates matters to them and to the hint that is made
of them; to sort all matches and then leave out each that repeats the one before
it comes to the same. -/
theorem suggest_eq_take_sort (needle : String) (candidates : List String) :
    let word := Text.trimBlanks needle.toList
    (∀ text : List Char, IsLeast {count | Text.Edits count word text}
      (Text.editDistance word text)) ∧
    ((∀ char ∈ needle.toList, Text.isBlank char) →
      suggest needle candidates = []) ∧
    ((∃ char ∈ needle.toList, ¬Text.isBlank char) →
      suggest needle candidates =
          ((choices word candidates.toFinset).sort (Nearer word)).take 3 ∧
        suggest needle candidates =
          (((StableSort.sort Match.le (nearby word candidates)).map
            Match.text).destutter (· ≠ ·)).take 3) ∧
    (suggest needle candidates).Nodup ∧
    (∀ others : List String, (∀ text, text ∈ others ↔ text ∈ candidates) →
      suggest needle others = suggest needle candidates ∧
        didYouMean needle others = didYouMean needle candidates) := by
  intro word
  refine ⟨Text.isLeast_editDistance word, ?blank, ?worded,
    nodup_suggest needle candidates, ?others⟩
  case blank =>
    intro blank
    exact suggest_of_trimBlanks_eq_nil (Text.trimBlanks_eq_nil_iff.mpr blank) _
  case worded =>
    rintro ⟨char, member, visible⟩
    have first_three := suggest_of_trimBlanks_ne_nil
      (fun blank => visible (Text.trimBlanks_eq_nil_iff.mp blank char member))
      candidates
    exact ⟨first_three, by rw [destutter_texts, first_three]⟩
  case others =>
    intro others same
    have suggested := suggest_congr needle same
    exact ⟨suggested, by rw [didYouMean, suggested, didYouMean]⟩

def nearCat : List String :=
  ["cut", "cart", "bat", "", "cat", "bat", "at", "dog"]

theorem suggest_eq_take_sort_nearCat :
    (∃ char ∈ " cat\t".toList, ¬Text.isBlank char) ∧
    ((choices (Text.trimBlanks " cat\t".toList) nearCat.toFinset).sort
      (Nearer (Text.trimBlanks " cat\t".toList))).take 3 =
        ["at", "bat", "cut"] ∧
    suggest " cat\t" ("dog" :: nearCat.reverse) = ["at", "bat", "cut"] := by
  have visible : ∃ char ∈ " cat\t".toList, ¬Text.isBlank char :=
    ⟨'c', by simp, by decide⟩
  have found : suggest " cat\t" nearCat = ["at", "bat", "cut"] := by
    decide +kernel
  have same : ∀ text, text ∈ "dog" :: nearCat.reverse ↔ text ∈ nearCat := by
    intro text
    rw [List.mem_cons, List.mem_reverse]
    exact or_iff_right_of_imp fun dog => dog ▸ by decide
  obtain ⟨-, -, worded, -, others⟩ := suggest_eq_take_sort " cat\t" nearCat
  exact ⟨visible, (worded visible).1.symm.trans found,
    (others _ same).1.trans found⟩

end Suggestion

end ComponentLang
