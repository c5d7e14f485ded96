import PercentFormat.Proofs.Show.Padding
import PercentFormat.Proofs.Text.Hex
import PercentFormat.Proofs.Text.Utf8
import PercentFormat.Show.HexBytes

/-!
# Hexadecimal text is read back

Every byte is shown as a group of two digits. Without spaces and marks the digits alone are left,
and each two of them are a byte, whatever the flags were.
-/

namespace PercentFormat

namespace Hex

/-- The two digits of a byte. -/
def pair (upper : Bool) (b : UInt8) : List Char :=
  [digit upper (b.toNat / 16), digit upper (b.toNat % 16)]

/-- The bytes that an even number of digits stands for. -/
def bytes? : List Char → Option (List UInt8)
  | [] => some []
  | [_] => none
  | high :: low :: cs =>
    match value? high, value? low, bytes? cs with
    | some h, some l, some bs => some ((16 * h + l).toUInt8 :: bs)
    | _, _, _ => none

theorem byte_halves (b : UInt8) : b.toNat / 16 < 16 ∧ b.toNat % 16 < 16 := by
  have hb := b.toNat_lt
  omega

theorem byte_eq_pair (upper : Bool) (b : UInt8) : byte upper b = pair upper b := by
  have hmod : b.toNat / 16 % 16 = b.toNat / 16 := Nat.mod_eq_of_lt (byte_halves b).1
  simp only [byte, digits, List.nil_append, List.cons_append, pair, hmod]

theorem bytes?_pairs (upper : Bool) (bs : List UInt8) :
    bytes? (bs.flatMap (pair upper)) = some bs := by
  induction bs with
  | nil => rfl
  | cons b bs ih =>
    obtain ⟨hhigh, hlow⟩ := byte_halves b
    rw [List.flatMap_cons, pair, List.cons_append, List.cons_append, List.nil_append, bytes?,
      value?_digit upper hhigh, value?_digit upper hlow, ih]
    simp only [Nat.div_add_mod, Nat.toUInt8_eq, UInt8.ofNat_toNat]

/-- No digit can be taken for a space or for the letter of a mark. -/
theorem digit_plain (upper : Bool) {n : Nat} (h : n < 16) :
    digit upper n ≠ ' ' ∧ digit upper n ∉ ['x', 'X'] := by
  have hall : ∀ upper, ∀ n < 16, digit upper n ≠ ' ' ∧ digit upper n ∉ ['x', 'X'] := by decide
  exact hall upper n h

theorem toUpper_digit {n : Nat} (h : n < 16) : (digit false n).toUpper = digit true n := by
  have hall : ∀ n < 16, (digit false n).toUpper = digit true n := by decide
  exact hall n h

theorem toUpper_pair (b : UInt8) : (pair false b).map Char.toUpper = pair true b := by
  obtain ⟨hhigh, hlow⟩ := byte_halves b
  simp only [pair, List.map_cons, List.map_nil, toUpper_digit hhigh, toUpper_digit hlow]

end Hex

namespace Show

/-! ## Shape -/

/-- The bytes that are shown of a text. -/
def shownBytes (precision : Option Nat) (s : String) : List UInt8 :=
  s.toUTF8.data.toList.take (precision.getD s.utf8ByteSize)

/-- A text that is shown in hexadecimal without a width. -/
def hexText (flags : Flags) (precision : Option Nat) (s : String) : String :=
  Edit.allAdded (hexBytes flags none precision s)

theorem hexBytes_eq (flags : Flags) (width precision : Option Nat) (s : String) :
    hexBytes flags width precision s =
      if shownBytes precision s = [] then [padding flags (width.getD 0)]
      else
        pad flags width (encodedLength flags (shownBytes precision s).length)
          (spelled (encodedLength flags (shownBytes precision s).length)
            (hexChars flags (shownBytes precision s))) := by
  have hsize : s.toUTF8.data.toList.length = s.utf8ByteSize := rfl
  simp only [← List.isEmpty_iff]
  cases precision with
  | none =>
    have htake : shownBytes none s = s.toUTF8.data.toList :=
      List.take_of_length_le (Nat.le_of_eq hsize)
    rw [htake]
    rfl
  | some p => rfl

def group (flags : Flags) (b : UInt8) : List Char := hexMark flags ++ Hex.pair flags.upper b

theorem hexChars_joined {flags : Flags} (h : flags.space = false) (bytes : List UInt8) :
    hexChars flags bytes = hexMark flags ++ bytes.flatMap (Hex.pair flags.upper) := by
  have hbyte : Hex.byte flags.upper = Hex.pair flags.upper := by
    funext b
    exact Hex.byte_eq_pair flags.upper b
  rw [hexChars, h, if_neg (by simp), hbyte]

theorem hexChars_spaced {flags : Flags} (h : flags.space = true) (bytes : List UInt8) :
    hexChars flags bytes = [' '].intercalate (bytes.map (group flags)) := by
  rw [hexChars, if_pos h]
  fun_induction spaced (hexMark flags) flags.upper bytes with
  | case1 => rfl
  | case2 b => simp [group, Hex.byte_eq_pair]
  | case3 b bs hne ih =>
    have hgroups : bs.map (group flags) ≠ [] := by simpa using hne
    rw [ih, List.map_cons, List.intercalate_cons_of_ne_nil hgroups, Hex.byte_eq_pair, group]
    simp

/-! ## Reading -/

/-- A text without its spaces and marks. -/
def unmarked : List Char → List Char
  | [] => []
  | [c] => if c = ' ' then [] else [c]
  | c :: x :: cs =>
    if c = ' ' then unmarked (x :: cs)
    else if c = '0' ∧ x ∈ ['x', 'X'] then unmarked cs
    else c :: unmarked (x :: cs)

theorem unmarked_space (cs : List Char) : unmarked (' ' :: cs) = unmarked cs := by
  cases cs with
  | nil => rfl
  | cons x cs => rw [unmarked, if_pos rfl]

theorem unmarked_mark (flags : Flags) (cs : List Char) :
    unmarked (hexMark flags ++ cs) = unmarked cs := by
  unfold hexMark
  split
  · rw [List.cons_append, List.cons_append, List.nil_append, unmarked, if_neg (by decide),
      if_pos ⟨rfl, by cases flags.upper <;> decide⟩]
  · rfl

/-- A text at whose head no letter of a mark stands. -/
def Unlettered (cs : List Char) : Prop := ∀ x ∈ cs.head?, x ∉ ['x', 'X']

theorem unmarked_plain {c : Char} (hc : c ≠ ' ') {cs : List Char} (h : Unlettered cs) :
    unmarked (c :: cs) = c :: unmarked cs := by
  cases cs with
  | nil => exact if_neg hc
  | cons x cs =>
    have hx : ¬ (c = '0' ∧ x ∈ ['x', 'X']) := fun hm => h x rfl hm.2
    rw [unmarked, if_neg hc, if_neg hx]

theorem unmarked_pair (upper : Bool) (b : UInt8) {cs : List Char} (h : Unlettered cs) :
    unmarked (Hex.pair upper b ++ cs) = Hex.pair upper b ++ unmarked cs := by
  obtain ⟨hhigh, hlow⟩ := Hex.byte_halves b
  obtain ⟨hspace, -⟩ := Hex.digit_plain upper hhigh
  obtain ⟨hspace', hletter⟩ := Hex.digit_plain upper hlow
  have hnext : Unlettered (Hex.digit upper (b.toNat % 16) :: cs) := by
    intro x hx
    rw [List.head?_cons, Option.mem_some] at hx
    exact hx ▸ hletter
  simp only [Hex.pair, List.cons_append, List.nil_append]
  rw [unmarked_plain hspace hnext, unmarked_plain hspace' h]

theorem unlettered_pairs (upper : Bool) (bs : List UInt8) :
    Unlettered (bs.flatMap (Hex.pair upper)) := by
  cases bs with
  | nil => simp [Unlettered]
  | cons b bs =>
    intro x hx
    rw [List.flatMap_cons, Hex.pair, List.cons_append, List.head?_cons, Option.mem_some] at hx
    exact hx ▸ (Hex.digit_plain upper (Hex.byte_halves b).1).2

theorem unmarked_pairs (upper : Bool) (bs : List UInt8) :
    unmarked (bs.flatMap (Hex.pair upper)) = bs.flatMap (Hex.pair upper) := by
  induction bs with
  | nil => rfl
  | cons b bs ih => rw [List.flatMap_cons, unmarked_pair upper b (unlettered_pairs upper bs), ih]

theorem unmarked_groups (flags : Flags) (bs : List UInt8) :
    unmarked ([' '].intercalate (bs.map (group flags))) =
      bs.flatMap (Hex.pair flags.upper) := by
  induction bs with
  | nil => rfl
  | cons b bs ih =>
    by_cases hbs : bs = []
    · rw [hbs, List.map_cons, List.map_nil, List.intercalate_singleton, group, unmarked_mark]
      exact unmarked_pairs flags.upper [b]
    · have hgroups : bs.map (group flags) ≠ [] := by simpa using hbs
      have hspace : Unlettered (' ' :: [' '].intercalate (bs.map (group flags))) := by
        simp [Unlettered]
      rw [List.map_cons, List.intercalate_cons_of_ne_nil hgroups, group, List.append_assoc,
        List.append_assoc, List.singleton_append, unmarked_mark,
        unmarked_pair flags.upper b hspace, unmarked_space, ih, List.flatMap_cons]

/-- The digits are all that is left of a text in hexadecimal. -/
theorem unmarked_hexChars (flags : Flags) (bytes : List UInt8) :
    unmarked (hexChars flags bytes) = bytes.flatMap (Hex.pair flags.upper) := by
  cases hspace : flags.space with
  | false => rw [hexChars_joined hspace, unmarked_mark, unmarked_pairs]
  | true => rw [hexChars_spaced hspace, unmarked_groups]

/-! ## Capitals -/

theorem toUpper_hexMark (flags : Flags) :
    (hexMark { flags with upper := false }).map Char.toUpper =
      hexMark { flags with upper := true } := by
  have hletter : ['0', 'x'].map Char.toUpper = ['0', 'X'] := by decide
  simp only [hexMark, Bool.false_eq_true, if_false, if_true]
  split
  · exact hletter
  · rfl

theorem toUpper_pairs (bs : List UInt8) :
    (bs.flatMap (Hex.pair false)).map Char.toUpper = bs.flatMap (Hex.pair true) := by
  rw [List.map_flatMap]
  exact List.flatMap_congr fun b _ => Hex.toUpper_pair b

theorem toUpper_group (flags : Flags) (b : UInt8) :
    (group { flags with upper := false } b).map Char.toUpper =
      group { flags with upper := true } b := by
  rw [group, List.map_append, toUpper_hexMark, Hex.toUpper_pair, group]

theorem toUpper_groups (flags : Flags) (bs : List UInt8) :
    ([' '].intercalate (bs.map (group { flags with upper := false }))).map Char.toUpper =
      [' '].intercalate (bs.map (group { flags with upper := true })) := by
  induction bs with
  | nil => rfl
  | cons b bs ih =>
    by_cases hbs : bs = []
    · simp only [hbs, List.map_cons, List.map_nil, List.intercalate_singleton, toUpper_group]
    · have hgroups (flags : Flags) : bs.map (group flags) ≠ [] := by simpa using hbs
      have hspace : ([' '] : List Char).map Char.toUpper = [' '] := by decide
      rw [List.map_cons, List.map_cons, List.intercalate_cons_of_ne_nil (hgroups _),
        List.intercalate_cons_of_ne_nil (hgroups _), List.map_append, List.map_append, ih,
        toUpper_group, hspace]

theorem toUpper_hexChars (flags : Flags) (bytes : List UInt8) :
    (hexChars { flags with upper := false } bytes).map Char.toUpper =
      hexChars { flags with upper := true } bytes := by
  by_cases hspace : flags.space = true
  · have hspaced (upper : Bool) : ({ flags with upper := upper } : Flags).space = true := hspace
    rw [hexChars_spaced (hspaced false), hexChars_spaced (hspaced true)]
    exact toUpper_groups flags bytes
  · have hjoined (upper : Bool) : ({ flags with upper := upper } : Flags).space = false := by
      simpa using hspace
    rw [hexChars_joined (hjoined false), hexChars_joined (hjoined true), List.map_append,
      toUpper_hexMark, toUpper_pairs]

/-! ## Texts -/

theorem hexText_toList (flags : Flags) (precision : Option Nat) (s : String) :
    (hexText flags precision s).toList =
      if shownBytes precision s = [] then [] else hexChars flags (shownBytes precision s) := by
  rw [hexText, hexBytes_eq]
  by_cases hempty : shownBytes precision s = []
  · rw [if_pos hempty, if_pos hempty]
    simp [added_padding]
  · rw [if_neg hempty, if_neg hempty, allAdded_pad_none, allAdded_spelled, String.toList_ofList]

/-- Text in hexadecimal has its bytes as groups in their order, marked and set apart as the flags
ask, and is read back without knowing the flags. Capitals change nothing else. -/
theorem hex_lossless (flags : Flags) (precision : Option Nat) (s : String) :
    (∀ b : Buffer, (b.applyAll (hexBytes flags none precision s)).bytes =
      b.bytes ++ (hexText flags precision s).toUTF8) ∧
    (hexText flags precision s).toList =
      (if shownBytes precision s = [] then []
      else if flags.space then [' '].intercalate ((shownBytes precision s).map (group flags))
      else hexMark flags ++ (shownBytes precision s).flatMap (Hex.pair flags.upper)) ∧
    Hex.bytes? (unmarked (hexText flags precision s).toList) = some (shownBytes precision s) ∧
    (hexText { flags with upper := true } precision s).toList =
      (hexText { flags with upper := false } precision s).toList.map Char.toUpper := by
  refine ⟨fun b => b.bytes_applyAll _, ?_, ?_, ?_⟩
  · rw [hexText_toList]
    by_cases hspace : flags.space = true
    · rw [hexChars_spaced hspace, if_pos hspace]
    · rw [hexChars_joined (by simpa using hspace), if_neg hspace]
  · rw [hexText_toList]
    split
    · next hempty => rw [hempty]; rfl
    · rw [unmarked_hexChars, Hex.bytes?_pairs]
  · rw [hexText_toList, hexText_toList]
    split
    · rfl
    · rw [toUpper_hexChars]

end Show

end PercentFormat
