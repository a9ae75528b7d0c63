import NuraftMesg.Common
import Mathlib.Data.List.Basic
import Mathlib.Tactic.Ring

/-!
# The canonical text of a UUID

Thirty-two hexadecimal digits in five groups separated by dashes. Reading back
drops the dashes, collects the digits and accepts exactly the canonical texts.
-/

namespace NuraftMesg

namespace UuidText

/-- The last `length` base-sixteen digits of `n`, most significant first. -/
def hexDigits : ℕ → ℕ → List ℕ
  | 0, _ => []
  | length + 1, n => hexDigits length (n / 16) ++ [n % 16]

/-- Collect base-sixteen digits. -/
def ofHexDigits (digits : List ℕ) : ℕ := digits.foldl (fun n d => 16 * n + d) 0

/-- The lower-case character of a digit. -/
def hexChar (d : ℕ) : Char := Char.ofNat (if d < 10 then 48 + d else 87 + d)

/-- The digit of a lower-case character. -/
def hexValue (c : Char) : ℕ := if c.toNat < 58 then c.toNat - 48 else c.toNat - 87

/-- Separate the digits into groups of eight, four, four, four and twelve. -/
def group (digits : List Char) : List Char :=
  digits.take 8 ++ '-' :: (digits.drop 8).take 4 ++ '-' :: (digits.drop 12).take 4 ++
    '-' :: (digits.drop 16).take 4 ++ '-' :: digits.drop 20

/-- The canonical text. -/
def canonical (id : Uuid) : String := String.ofList (group ((hexDigits 32 id.toNat).map hexChar))

/-- Read a canonical text. -/
def parse (s : String) : Option Uuid :=
  let id : Uuid := BitVec.ofNat 128 (ofHexDigits ((s.toList.filter (· ≠ '-')).map hexValue))
  if canonical id = s then some id else none

/-- Collecting the last digits of a number gives the number modulo their range. -/
theorem ofHexDigits_hexDigits (length n : ℕ) :
    ofHexDigits (hexDigits length n) = n % 16 ^ length := by
  induction length generalizing n with
  | zero => simp [hexDigits, ofHexDigits, Nat.mod_one]
  | succ length ih =>
    have hfold : ofHexDigits (hexDigits length (n / 16) ++ [n % 16]) =
        16 * ofHexDigits (hexDigits length (n / 16)) + n % 16 := by
      simp [ofHexDigits, List.foldl_append]
    have hpow : 16 ^ (length + 1) = 16 * 16 ^ length := by ring
    rw [hexDigits, hfold, ih, hpow, Nat.mod_mul]
    omega

/-- Every digit is below sixteen. -/
theorem lt_of_mem_hexDigits {length n d : ℕ} (hd : d ∈ hexDigits length n) : d < 16 := by
  induction length generalizing n with
  | zero => simp [hexDigits] at hd
  | succ length ih =>
    rcases List.mem_append.mp hd with h | h
    · exact ih h
    · have : d = n % 16 := by simpa using h
      omega

/-- Characters stand for their digits, and none of them is a dash. -/
theorem hexValue_hexChar {d : ℕ} (hd : d < 16) : hexValue (hexChar d) = d ∧ hexChar d ≠ '-' := by
  revert d
  decide

/-- Dropping the dashes undoes the grouping. -/
theorem filter_group {digits : List Char} (hdigits : ∀ c ∈ digits, c ≠ '-') :
    (group digits).filter (· ≠ '-') = digits := by
  have hkeep : ∀ {part : List Char}, part ⊆ digits → part.filter (· ≠ '-') = part := by
    intro part hpart
    apply List.filter_eq_self.mpr
    intro c hc
    simpa using hdigits c (hpart hc)
  have hmid : ∀ k, (digits.drop k).take 4 ⊆ digits := fun k =>
    List.Subset.trans (List.take_subset _ _) (List.drop_subset _ _)
  simp only [group, List.filter_append, List.filter_cons, ne_eq, not_true_eq_false, decide_false,
    Bool.false_eq_true, if_false]
  rw [hkeep (List.take_subset _ _), hkeep (hmid 8), hkeep (hmid 12), hkeep (hmid 16),
    hkeep (List.drop_subset _ _)]
  have hjoin : ∀ k, (digits.drop k).take 4 ++ digits.drop (k + 4) = digits.drop k := by
    intro k
    rw [← List.drop_drop, List.take_append_drop]
  simp only [List.append_assoc]
  rw [hjoin 16, hjoin 12, hjoin 8, List.take_append_drop]

/-- Reading the canonical text gives the UUID back. -/
theorem parse_canonical (id : Uuid) : parse (canonical id) = some id := by
  have hchars : ∀ c ∈ (hexDigits 32 id.toNat).map hexChar, c ≠ '-' := by
    intro c hc
    obtain ⟨d, hd, rfl⟩ := List.mem_map.mp hc
    exact (hexValue_hexChar (lt_of_mem_hexDigits hd)).2
  have hvalues : ((hexDigits 32 id.toNat).map hexChar).map hexValue = hexDigits 32 id.toNat := by
    rw [List.map_map]
    refine (List.map_congr_left fun d hd => ?_).trans (List.map_id _)
    exact (hexValue_hexChar (lt_of_mem_hexDigits hd)).1
  have hid : BitVec.ofNat 128 (ofHexDigits (((canonical id).toList.filter (· ≠ '-')).map hexValue))
      = id := by
    rw [canonical, String.toList_ofList, filter_group hchars, hvalues, ofHexDigits_hexDigits]
    apply BitVec.eq_of_toNat_eq
    have hlt := id.isLt
    rw [BitVec.toNat_ofNat]
    omega
  simp only [parse]
  rw [hid, if_pos rfl]

theorem hexDigits_length (length n : ℕ) : (hexDigits length n).length = length := by
  induction length generalizing n with
  | zero => rfl
  | succ length ih => simp [hexDigits, ih]

/-- The canonical text has thirty-two digits and four dashes. -/
theorem canonical_length (id : Uuid) : (canonical id).length = 36 := by
  rw [canonical, ← String.length_toList, String.toList_ofList]
  simp [group, hexDigits_length]

end UuidText

/-- The canonical printer and reader. -/
def canonicalText : UuidText where
  toString := UuidText.canonical
  stringGenerator := UuidText.parse
  read_print := UuidText.parse_canonical

theorem canonicalText_length (id : Uuid) : (canonicalText.toString id).length = 36 :=
  UuidText.canonical_length id

end NuraftMesg
