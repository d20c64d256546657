import Mathlib.Data.List.Nodup
import ComponentLang.Highlight

namespace ComponentLang

namespace StableSort

variable {α : Type} {le : α → α → Bool} {element : α}

theorem insert_append {front back : List α}
    (behind : ∀ other ∈ front, ¬le element other) :
    insert le element (front ++ back) = front ++ insert le element back := by
  induction front with
  | nil => rfl
  | cons head front induction =>
      obtain ⟨head_behind, front_behind⟩ := List.forall_mem_cons.mp behind
      rw [List.cons_append, insert, if_neg head_behind, induction front_behind]
      rfl

/-- Insertion sorts as merging does, since both are stable. -/
theorem sort_eq_mergeSort (trans : ∀ a b c, le a b → le b c → le a c)
    (total : ∀ a b, le a b || le b a) (elements : List α) :
    sort le elements = elements.mergeSort le := by
  induction elements with
  | nil => rw [sort_nil, List.mergeSort_nil]
  | cons element rest induction =>
      obtain ⟨front, back, whole_eq, rest_eq, behind⟩ :=
        List.mergeSort_cons trans total element rest
      have sorted := List.pairwise_mergeSort trans total (element :: rest)
      rw [whole_eq, List.pairwise_append, List.pairwise_cons] at sorted
      have least : insert le element back = element :: back := by
        cases back with
        | nil => rfl
        | cons head back =>
            rw [insert, if_pos (sorted.2.1.1 head List.mem_cons_self)]
      rw [sort_cons, induction, rest_eq, whole_eq, insert_append, least]
      intro other member
      rw [(Bool.not_eq_eq_eq_not.mp (behind other member))]
      exact Bool.false_ne_true

end StableSort

theorem Position.le_antisymm {first second : Position} (front : first.le second)
    (back : second.le first) : first = second := by
  rw [le_iff] at front back
  obtain ⟨line, column⟩ := first
  obtain ⟨line', column'⟩ := second
  simp only at front back
  rw [mk.injEq]
  omega

namespace TokenKind

theorem typeIndex?_legendName (kind : TokenKind) :
    Highlight.typeIndex? kind.legendName = some kind.index := by
  cases kind <;> decide

end TokenKind

namespace Highlight

/-- What an editor shows of a token: where it stands, and the numbers of its
kind and modifiers. -/
structure Mark where
  line : Nat
  column : Nat
  length : Nat
  kind : Nat
  modifiers : Nat
  deriving DecidableEq, Repr

namespace Mark

def ofToken (token : Token) : Mark where
  line := token.line
  column := token.column
  length := token.length
  kind := token.kind.index
  modifiers := token.modifiers.bits

/-- An entry leads from the place before to the mark it stands for. -/
def ofEntry (place : Position) (lines columns length kind modifiers : Nat) :
    Mark where
  line := place.line + lines
  column := if lines = 0 then place.column + columns else columns
  length
  kind
  modifiers

def start (mark : Mark) : Position :=
  ⟨mark.line, mark.column⟩

end Mark

/-- The marks of a list of entries, by running sums from the given place. -/
def decodeFrom (place : Position) : List Nat → List Mark
  | lines :: columns :: length :: kind :: modifiers :: rest =>
      let mark := Mark.ofEntry place lines columns length kind modifiers
      mark :: decodeFrom mark.start rest
  | _ => []

def decode (numbers : List Nat) : List Mark :=
  decodeFrom ⟨0, 0⟩ numbers

/-! Encoding with differences that may not go below zero. -/

def difference? (number other : Nat) : Option Nat :=
  if other ≤ number then some (number - other) else none

def numbers? (place : Position) (token : Token) : Option (List Nat) := do
  let lines ← difference? token.line place.line
  let columns ←
    if lines = 0 then difference? token.column place.column
    else some token.column
  return [lines, columns, token.length, token.kind.index, token.modifiers.bits]

def encodeFrom? (place : Position) : List Token → Option (List Nat)
  | [] => some []
  | token :: rest => do
      let first ← numbers? place token
      let later ← encodeFrom? token.start rest
      return first ++ later

def encode? (tokens : List Token) : Option (List Nat) :=
  encodeFrom? ⟨0, 0⟩ (shown tokens)

section Entry

variable {place : Position} {token : Token}

theorem difference?_eq_some {number other : Nat} (le : other ≤ number) :
    difference? number other = some (number - other) :=
  if_pos le

theorem numbers?_eq_some (before : place ≤ token.start) :
    numbers? place token = some (entry place token) := by
  have order := Position.le_iff.mp before
  simp only [Token.start] at order
  have lines : place.line ≤ token.line := by omega
  simp only [numbers?, entry, difference?_eq_some lines, Option.bind_eq_bind,
    Option.bind_some]
  split
  · have columns : place.column ≤ token.column := by omega
    rw [difference?_eq_some columns]
    rfl
  · rfl

theorem decodeFrom_entry (before : place ≤ token.start) (rest : List Nat) :
    decodeFrom place (entry place token ++ rest) =
      Mark.ofToken token :: decodeFrom token.start rest := by
  have order := Position.le_iff.mp before
  simp only [Token.start] at order
  have mark_eq : Mark.ofEntry place (token.line - place.line)
      (if token.line - place.line = 0 then token.column - place.column
        else token.column)
      token.length token.kind.index token.modifiers.bits =
        Mark.ofToken token := by
    simp only [Mark.ofEntry, Mark.ofToken, Mark.mk.injEq, and_true]
    refine ⟨by omega, ?_⟩
    split <;> omega
  simp only [entry, List.cons_append, List.nil_append, decodeFrom, mark_eq]
  rfl

end Entry

/-! A list of tokens that goes on from the place before. -/

section Entries

variable {place : Position} {tokens : List Token}

theorem encodeFrom?_eq_some
    (ordered : (place :: tokens.map Token.start).IsChain (· ≤ ·)) :
    encodeFrom? place tokens = some (encodeFrom place tokens) := by
  induction tokens generalizing place with
  | nil => rfl
  | cons token rest induction =>
      obtain ⟨before, later⟩ := List.isChain_cons_cons.mp ordered
      rw [encodeFrom?, numbers?_eq_some before, induction later]
      rfl

theorem decodeFrom_encodeFrom
    (ordered : (place :: tokens.map Token.start).IsChain (· ≤ ·)) :
    decodeFrom place (encodeFrom place tokens) = tokens.map Mark.ofToken := by
  induction tokens generalizing place with
  | nil => rfl
  | cons token rest induction =>
      obtain ⟨before, later⟩ := List.isChain_cons_cons.mp ordered
      rw [encodeFrom, decodeFrom_entry before, induction later, List.map_cons]

theorem length_encodeFrom (place : Position) (tokens : List Token) :
    (encodeFrom place tokens).length = 5 * tokens.length := by
  induction tokens generalizing place with
  | nil => rfl
  | cons token rest induction =>
      rw [encodeFrom, List.length_append, induction, List.length_cons]
      simp only [entry, List.length_cons, List.length_nil]
      omega

end Entries

/-! The tokens that are shown. -/

theorem start_le_trans (first second third : Token)
    (front : first.start.le second.start)
    (back : second.start.le third.start) : first.start.le third.start :=
  Position.le_trans front back

theorem start_le_total (first second : Token) :
    first.start.le second.start || second.start.le first.start :=
  Position.le_total first.start second.start

theorem pairwise_shown (tokens : List Token) :
    (shown tokens).Pairwise fun first second => first.start ≤ second.start :=
  StableSort.pairwise_sort start_le_trans
    (fun first second => Bool.or_eq_true_iff.mp (start_le_total first second)) _

theorem isChain_shown (tokens : List Token) :
    ((⟨0, 0⟩ : Position) :: (shown tokens).map Token.start).IsChain
      (· ≤ ·) := by
  apply List.Pairwise.isChain
  refine List.pairwise_cons.mpr
    ⟨?_, List.pairwise_map.mpr (pairwise_shown tokens)⟩
  intro place _
  apply Position.le_iff.mpr
  simp only
  omega

theorem shown_eq_mergeSort (tokens : List Token) :
    shown tokens =
      (tokens.filter fun token => 0 < token.length).mergeSort
        fun first second => first.start.le second.start :=
  StableSort.sort_eq_mergeSort start_le_trans start_le_total _

theorem shown_eq_of_perm {tokens others : List Token}
    (apart : ((tokens.filter fun token => 0 < token.length).map
      Token.start).Nodup)
    (same : others.Perm tokens) : shown others = shown tokens := by
  have perm : (shown others).Perm (shown tokens) :=
    (StableSort.sort_perm _ _).trans
      ((same.filter _).trans (StableSort.sort_perm _ _).symm)
  refine List.Perm.eq_of_pairwise ?_ (pairwise_shown others)
    (pairwise_shown tokens) perm
  intro first second first_shown second_shown front back
  refine List.inj_on_of_nodup_map apart ?_ ?_
    (Position.le_antisymm front back)
  · exact StableSort.mem_sort.mp (perm.mem_iff.mp first_shown)
  · exact StableSort.mem_sort.mp second_shown

/-- A highlighting is made without a difference below zero and has five numbers
for each token with a length. Running sums give back where these tokens stand,
in document order and otherwise in their own, with their lengths, the indices of
their kinds in the legend and the bits of their modifiers. Where no two of them
share a place, their order on input makes no difference. -/
theorem decode_encode (tokens : List Token) :
    encode? tokens = some (encode tokens) ∧
    (encode tokens).length =
      5 * (tokens.filter fun token => 0 < token.length).length ∧
    decode (encode tokens) =
      ((tokens.filter fun token => 0 < token.length).mergeSort
        fun first second => first.start.le second.start).map Mark.ofToken ∧
    (∀ kind : TokenKind, typeIndex? kind.legendName = some kind.index) ∧
    (((tokens.filter fun token => 0 < token.length).map Token.start).Nodup →
      ∀ others : List Token, others.Perm tokens →
        encode others = encode tokens) := by
  refine ⟨?checked, ?length, ?decoded, TokenKind.typeIndex?_legendName,
    ?permuted⟩
  case checked => exact encodeFrom?_eq_some (isChain_shown tokens)
  case length =>
    rw [encode, length_encodeFrom, shown, StableSort.length_sort]
  case decoded =>
    rw [decode, encode, decodeFrom_encodeFrom (isChain_shown tokens),
      shown_eq_mergeSort]
  case permuted =>
    intro apart others same
    rw [encode, shown_eq_of_perm apart same, encode]

def scattered : List Token :=
  [⟨2, 4, "b", .variable, { declaration := true }⟩, .marker ⟨1, 0⟩,
    ⟨0, 7, "a", .port, {}⟩, ⟨2, 1, "E", .enum, {}⟩]

theorem decode_encode_scattered :
    ((scattered.filter fun token => 0 < token.length).map Token.start).Nodup ∧
    scattered.reverse.Perm scattered ∧
    encode scattered.reverse = encode scattered ∧
    encode scattered = [0, 7, 1, 10, 0, 2, 1, 1, 13, 0, 0, 3, 1, 18, 1] := by
  have apart : ((scattered.filter fun token => 0 < token.length).map
      Token.start).Nodup := by decide
  have same := List.reverse_perm scattered
  exact ⟨apart, same, (decode_encode scattered).2.2.2.2 apart _ same, by decide⟩

end Highlight

end ComponentLang
