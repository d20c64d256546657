import Mathlib.Data.List.Lex
import Mathlib.Tactic.SplitIfs
import Mathlib.Data.String.Basic

namespace ComponentLang.Text

def bytes (text : String) : List Nat :=
  text.toByteArray.data.toList.map UInt8.toNat

def charBytes (char : Char) : List Nat :=
  (String.utf8EncodeChar char).map UInt8.toNat

theorem bytes_eq (text : String) :
    bytes text = text.toList.flatMap charBytes := by
  rw [bytes, ← String.utf8Encode_toList, List.utf8Encode]
  simp only [List.data_toByteArray, List.map_flatMap]
  rfl

theorem bytes_injective {first second : String}
    (same : bytes first = bytes second) : first = second := by
  have data : first.toByteArray.data.toList = second.toByteArray.data.toList :=
    List.map_injective_iff.mpr (fun _ _ => UInt8.toNat.inj) same
  exact String.toByteArray_inj.mp (ByteArray.ext (Array.toList_inj.mp data))

theorem charBytes_eq (char : Char) :
    charBytes char =
      if char.toNat ≤ 0x7F then [char.toNat]
      else if char.toNat ≤ 0x7FF then
        [char.toNat / 64 + 0xC0, char.toNat % 64 + 0x80]
      else if char.toNat ≤ 0xFFFF then
        [char.toNat / 4096 + 0xE0, char.toNat / 64 % 64 + 0x80,
          char.toNat % 64 + 0x80]
      else
        [char.toNat / 262144 + 0xF0, char.toNat / 4096 % 64 + 0x80,
          char.toNat / 64 % 64 + 0x80, char.toNat % 64 + 0x80] := by
  have bounded : char.toNat < 0x110000 := by
    rcases char.valid with low | ⟨-, high⟩
    · exact Nat.lt_trans low (by decide)
    · exact high
  have code : char.val.toNat = char.toNat := rfl
  simp only [charBytes, String.utf8EncodeChar, code]
  split_ifs <;>
    simp only [List.map_cons, List.map_nil, UInt8.toNat_ofNat',
      List.cons.injEq, and_true] <;>
    omega

theorem charBytes_append_lt {first second : Char} (lt : first < second)
    (left right : List Nat) :
    charBytes first ++ left < charBytes second ++ right := by
  have smaller : first.toNat < second.toNat := lt
  -- One case for each pair of sizes; the larger character has no fewer bytes.
  rw [charBytes_eq, charBytes_eq]
  split_ifs <;>
    simp only [List.cons_append, List.nil_append, List.cons_lt_cons_iff] <;>
    omega

theorem charBytes_ne_nil (char : Char) : charBytes char ≠ [] := by
  rw [charBytes, Ne, List.map_eq_nil_iff]
  exact String.utf8EncodeChar_ne_nil

theorem flatMap_charBytes_lt {first second : List Char} (lt : first < second) :
    first.flatMap charBytes < second.flatMap charBytes := by
  induction first generalizing second with
  | nil =>
      cases second with
      | nil => exact absurd lt (lt_irrefl _)
      | cons char second =>
          rw [List.flatMap_cons, List.flatMap_nil]
          obtain ⟨byte, more, bytes_eq⟩ :=
            List.exists_cons_of_ne_nil (charBytes_ne_nil char)
          rw [bytes_eq]
          exact List.nil_lt_cons _ _
  | cons char first induction =>
      cases second with
      | nil => exact absurd lt (List.not_lt_nil _)
      | cons other second =>
          rw [List.flatMap_cons, List.flatMap_cons]
          rcases List.cons_lt_cons_iff.mp lt with smaller | ⟨rfl, behind⟩
          · exact charBytes_append_lt smaller _ _
          · exact List.append_left_lt (induction behind)

theorem bytes_lt_iff {first second : String} :
    bytes first < bytes second ↔ first < second := by
  have keeps {left right : String} (lt : left < right) :
      bytes left < bytes right := by
    rw [bytes_eq, bytes_eq]
    exact flatMap_charBytes_lt (String.lt_iff_toList_lt.mp lt)
  refine ⟨fun lt => ?_, keeps⟩
  rcases lt_trichotomy first second with smaller | rfl | greater
  · exact smaller
  · exact absurd lt (lt_irrefl _)
  · exact absurd lt (lt_asymm (keeps greater))

end ComponentLang.Text
