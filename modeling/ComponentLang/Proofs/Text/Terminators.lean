import ComponentLang.Scan.Document
import Mathlib.Data.List.Chain

namespace ComponentLang.Text

inductive Terminator where
  | feed | carriage | both
  deriving DecidableEq, Repr

def Terminator.chars : Terminator → List Char
  | .feed => ['\n']
  | .carriage => ['\r']
  | .both => ['\r', '\n']

structure Lower where
  terminator : Terminator
  line : List Char
  deriving DecidableEq, Repr

def Lower.chars (lower : Lower) : List Char :=
  lower.terminator.chars ++ lower.line

/-- Whether the terminators around an empty line are read as one. -/
def Lower.Merges (upper lower : Lower) : Prop :=
  upper.terminator = .carriage ∧ upper.line = [] ∧ lower.terminator = .feed

def IsUnbroken (line : List Char) : Prop :=
  ∀ char ∈ line, char ≠ '\r' ∧ char ≠ '\n'

/-- What a text can be written from: its lines, with a terminator in front of
each but the first. -/
structure Lineation where
  first : List Char
  below : List Lower
  unbroken : ∀ line ∈ first :: below.map Lower.line, IsUnbroken line
  unmerged : below.IsChain fun upper lower => ¬upper.Merges lower

namespace Lineation

def lines (lineation : Lineation) : List (List Char) :=
  lineation.first :: lineation.below.map Lower.line

def text (lineation : Lineation) : String :=
  String.ofList (lineation.first ++ lineation.below.flatMap Lower.chars)

end Lineation

/-! The first line of a text and those below it, with the terminators. -/

def partLines : List Char → List Char × List Lower
  | [] => ([], [])
  | '\r' :: '\n' :: rest =>
      ([], ⟨.both, (partLines rest).1⟩ :: (partLines rest).2)
  | '\r' :: rest =>
      ([], ⟨.carriage, (partLines rest).1⟩ :: (partLines rest).2)
  | '\n' :: rest => ([], ⟨.feed, (partLines rest).1⟩ :: (partLines rest).2)
  | char :: rest => (char :: (partLines rest).1, (partLines rest).2)

theorem partLines_nil : partLines [] = ([], []) := rfl

/-- The terminator is not the first half of a longer one. -/
def Terminator.IsWhole (terminator : Terminator) (rest : List Char) : Prop :=
  terminator = .carriage → ∀ further, rest ≠ '\n' :: further

theorem Terminator.isWhole_feed (rest : List Char) : feed.IsWhole rest := by
  rintro ⟨⟩

theorem Terminator.isWhole_both (rest : List Char) : both.IsWhole rest := by
  rintro ⟨⟩

/-- A text is empty, or a terminator or another character comes first. -/
@[elab_as_elim]
theorem terminated_induction {motive : List Char → Prop} (nil : motive [])
    (ends : ∀ (terminator : Terminator) (rest : List Char),
      terminator.IsWhole rest → motive rest → motive (terminator.chars ++ rest))
    (inside : ∀ (char : Char) (rest : List Char), char ≠ '\r' → char ≠ '\n' →
      motive rest → motive (char :: rest)) (text : List Char) : motive text := by
  induction size_eq : text.length using Nat.strong_induction_on
    generalizing text with
  | h size induction =>
      subst size_eq
      have below {rest : List Char} (shorter : rest.length < text.length) :
          motive rest := induction rest.length shorter rest rfl
      cases text with
      | nil => exact nil
      | cons char rest =>
          have later : motive rest := below (Nat.lt_succ_self _)
          by_cases feed : char = '\n'
          · subst feed
            exact ends .feed rest (Terminator.isWhole_feed rest) later
          by_cases carriage : char = '\r'
          · subst carriage
            by_cases paired : ∃ further, rest = '\n' :: further
            · obtain ⟨further, rfl⟩ := paired
              exact ends .both further (Terminator.isWhole_both further)
                (below (Nat.lt_add_of_pos_right Nat.two_pos))
            · exact ends .carriage rest
                (fun _ further same => paired ⟨further, same⟩) later
          · exact inside char rest carriage feed later

theorem linesFrom_terminator {terminator : Terminator} {rest : List Char}
    (whole : terminator.IsWhole rest) (earlier : List (List Char))
    (line : List Char) :
    linesFrom earlier line (terminator.chars ++ rest) =
      linesFrom (line.reverse :: earlier) [] rest := by
  cases terminator with
  | feed => rfl
  | carriage => exact linesFrom.eq_3 _ _ _ (whole rfl)
  | both => rfl

theorem partLines_terminator {terminator : Terminator} {rest : List Char}
    (whole : terminator.IsWhole rest) :
    partLines (terminator.chars ++ rest) =
      ([], ⟨terminator, (partLines rest).1⟩ :: (partLines rest).2) := by
  cases terminator with
  | feed => rfl
  | carriage => exact partLines.eq_3 _ (whole rfl)
  | both => rfl

theorem partLines_cons {char : Char} (no_return : char ≠ '\r')
    (no_feed : char ≠ '\n') (rest : List Char) :
    partLines (char :: rest) =
      (char :: (partLines rest).1, (partLines rest).2) :=
  partLines.eq_5 _ _ (fun _ same _ => no_return same) no_return no_feed

theorem linesFrom_eq_partLines (earlier : List (List Char))
    (line text : List Char) :
    linesFrom earlier line text =
      earlier.reverse ++ (line.reverse ++ (partLines text).1) ::
        (partLines text).2.map Lower.line := by
  induction text using terminated_induction generalizing earlier line with
  | nil => simp [linesFrom, partLines_nil]
  | ends terminator rest whole induction =>
      rw [linesFrom_terminator whole, partLines_terminator whole, induction]
      simp
  | inside char rest no_return no_feed induction =>
      rw [linesFrom.eq_5 _ _ _ _ (fun _ same _ => no_return same) no_return
        no_feed, partLines_cons no_return no_feed, induction]
      simp

theorem lines_eq_partLines (text : List Char) :
    lines text = (partLines text).1 :: (partLines text).2.map Lower.line :=
  linesFrom_eq_partLines [] [] text

theorem chars_partLines (text : List Char) :
    (partLines text).1 ++ (partLines text).2.flatMap Lower.chars = text := by
  induction text using terminated_induction with
  | nil => rfl
  | ends terminator rest whole induction =>
      rw [partLines_terminator whole, List.nil_append, List.flatMap_cons,
        Lower.chars, List.append_assoc, induction]
  | inside char rest no_return no_feed induction =>
      rw [partLines_cons no_return no_feed, List.cons_append, induction]

theorem isUnbroken_partLines (text : List Char) :
    ∀ line ∈ (partLines text).1 :: (partLines text).2.map Lower.line,
      IsUnbroken line := by
  induction text using terminated_induction with
  | nil => simp [IsUnbroken, partLines_nil]
  | ends terminator rest whole induction =>
      rw [partLines_terminator whole]
      exact List.forall_mem_cons.mpr ⟨List.forall_mem_nil _, induction⟩
  | inside char rest no_return no_feed induction =>
      rw [partLines_cons no_return no_feed]
      obtain ⟨first, below⟩ := List.forall_mem_cons.mp induction
      exact List.forall_mem_cons.mpr
        ⟨List.forall_mem_cons.mpr ⟨⟨no_return, no_feed⟩, first⟩, below⟩

theorem exists_of_feed {text : List Char} {lower : Lower} {others : List Lower}
    (empty : (partLines text).1 = [])
    (below_eq : (partLines text).2 = lower :: others)
    (feed : lower.terminator = .feed) : ∃ rest, text = '\n' :: rest := by
  cases text using terminated_induction with
  | nil => cases below_eq
  | ends terminator rest whole =>
      rw [partLines_terminator whole] at below_eq
      obtain rfl : terminator = .feed := by
        rw [← feed, ← (List.cons.inj below_eq).1]
      exact ⟨rest, rfl⟩
  | inside char rest no_return no_feed =>
      rw [partLines_cons no_return no_feed] at empty
      cases empty

theorem isChain_partLines (text : List Char) :
    (partLines text).2.IsChain fun upper lower => ¬upper.Merges lower := by
  induction text using terminated_induction with
  | nil => exact .nil
  | ends terminator rest whole later =>
      rw [partLines_terminator whole]
      refine List.isChain_cons.mpr ⟨?_, later⟩
      rintro lower first ⟨carriage, empty, feed⟩
      obtain ⟨others, below_eq⟩ := List.head?_eq_some_iff.mp first
      obtain ⟨further, rest_eq⟩ := exists_of_feed empty below_eq feed
      exact whole carriage further rest_eq
  | inside char rest no_return no_feed induction =>
      rw [partLines_cons no_return no_feed]
      exact induction

def Lineation.ofText (text : String) : Lineation where
  first := (partLines text.toList).1
  below := (partLines text.toList).2
  unbroken := isUnbroken_partLines text.toList
  unmerged := isChain_partLines text.toList

/-! What was written is read back. -/

theorem partLines_append {line : List Char} (unbroken : IsUnbroken line)
    (rest : List Char) :
    partLines (line ++ rest) = (line ++ (partLines rest).1, (partLines rest).2) := by
  induction line with
  | nil => rfl
  | cons char line induction =>
      obtain ⟨⟨no_return, no_feed⟩, later⟩ := List.forall_mem_cons.mp unbroken
      rw [List.cons_append, partLines_cons no_return no_feed, induction later]
      rfl

theorem partLines_chars {first : List Char} {below : List Lower}
    (unbroken : ∀ line ∈ first :: below.map Lower.line, IsUnbroken line)
    (unmerged : below.IsChain fun upper lower => ¬upper.Merges lower) :
    partLines (first ++ below.flatMap Lower.chars) = (first, below) := by
  induction below generalizing first with
  | nil =>
      rw [partLines_append (unbroken first List.mem_cons_self)]
      simp [partLines_nil]
  | cons lower below induction =>
      obtain ⟨here, later⟩ := List.forall_mem_cons.mp unbroken
      obtain ⟨apart, chain⟩ := List.isChain_cons.mp unmerged
      have parts := induction later chain
      have whole : lower.terminator.IsWhole
          (lower.line ++ below.flatMap Lower.chars) := by
        intro carriage further same
        rw [same] at parts
        have fed := partLines_terminator (Terminator.isWhole_feed further)
        obtain ⟨empty, below_eq⟩ := Prod.mk.inj (fed.symm.trans parts)
        exact apart _ (congrArg List.head? below_eq).symm
          ⟨carriage, empty.symm, rfl⟩
      rw [partLines_append here, List.flatMap_cons, Lower.chars,
        List.append_assoc, partLines_terminator whole, parts]
      simp

namespace Lineation

theorem text_ofText (text : String) : (ofText text).text = text := by
  rw [Lineation.text, ofText, chars_partLines, String.ofList_toList]

theorem partLines_text (lineation : Lineation) :
    partLines lineation.text.toList = (lineation.first, lineation.below) := by
  rw [Lineation.text, String.toList_ofList]
  exact partLines_chars lineation.unbroken lineation.unmerged

theorem ofText_text (lineation : Lineation) :
    ofText lineation.text = lineation := by
  have parts := lineation.partLines_text
  cases lineation with
  | mk first below unbroken unmerged =>
      simp only [ofText, parts]

theorem lines_text (lineation : Lineation) :
    Text.lines lineation.text.toList = lineation.lines := by
  rw [lines_eq_partLines, partLines_text, lines]

end Lineation

/-- Splitting and writing are inverse to each other, and a text is scanned for
its lines alone, whatever ends them. -/
theorem splitLines_inverts_writing :
    (∀ lineation : Lineation,
      splitLines lineation.text = lineation.lines.map String.ofList) ∧
    (∀ text, (∃! lineation : Lineation, lineation.text = text) ∧
      ∀ line ∈ splitLines text, IsUnbroken line.toList) ∧
    ∀ lineation other : Lineation, lineation.lines = other.lines →
      scan lineation.text = scan other.text := by
  refine ⟨?split, ?write, ?scans⟩
  case split =>
    intro lineation
    rw [splitLines, lineation.lines_text]
  case write =>
    intro text
    refine ⟨⟨.ofText text, Lineation.text_ofText text, ?_⟩, ?_⟩
    · rintro lineation rfl
      exact lineation.ofText_text.symm
    · intro line member
      obtain ⟨chars, among, rfl⟩ := List.mem_map.mp member
      rw [lines_eq_partLines] at among
      rw [String.toList_ofList]
      exact isUnbroken_partLines text.toList chars among
  case scans =>
    intro lineation other same
    rw [scan, scan, lineation.lines_text, other.lines_text, same]

theorem splitLines_inverts_writing_carriages :
    (Lineation.ofText "a\r\r\n\"b").lines =
        (Lineation.ofText "a\n\n\"b").lines ∧
      scan (Lineation.ofText "a\r\r\n\"b").text =
        scan (Lineation.ofText "a\n\n\"b").text := by
  have same : (Lineation.ofText "a\r\r\n\"b").lines =
      (Lineation.ofText "a\n\n\"b").lines := by
    decide +kernel
  exact ⟨same, splitLines_inverts_writing.2.2 _ _ same⟩

end ComponentLang.Text
