import Mathlib.Tactic.SplitIfs
import PercentFormat.Proofs.Show.Padding
import PercentFormat.Proofs.Text.Hex

/-!
# Quoted text is read back

What stands between double quotes is read escape by escape, and gives the text that was quoted. Only
characters beyond ASCII depend on the table of printable characters.
-/

namespace PercentFormat.Show

/-! ## Reading -/

/-- Letters behind a backslash, and the bytes that they stand for. -/
def letterBytes : List (Char × UInt8) :=
  [('a', 0x07), ('b', 0x08), ('f', 0x0c), ('n', 0x0a), ('r', 0x0d), ('t', 0x09), ('v', 0x0b),
   ('"', 0x22), ('\\', 0x5c)]

/-- Letters behind a backslash, and the number of digits that follow them. -/
def digitCounts : List (Char × Nat) := [('x', 2), ('u', 4), ('U', 8)]

/-- What the digits behind a letter stand for: a byte, or a character. -/
def numbered? (letter : Char) (n : Nat) : Option (List UInt8) :=
  if letter = 'x' then some [n.toUInt8]
  else if n.isValidChar then some (String.utf8EncodeChar (Char.ofNat n))
  else none

/-- Reads what stands behind a backslash. -/
def readEscape? : List Char → Option (List UInt8 × List Char)
  | [] => none
  | letter :: cs =>
    match letterBytes.lookup letter with
    | some b => some ([b], cs)
    | none => do
      let width ← digitCounts.lookup letter
      let (n, rest) ← Hex.read? width cs
      let bytes ← numbered? letter n
      some (bytes, rest)

/-- The bytes of the first character or escape, and the text behind it. A double quote has none. -/
def readUnit? : List Char → Option (List UInt8 × List Char)
  | [] => none
  | c :: cs =>
    if c = '"' then none
    else if c = '\\' then readEscape? cs
    else some (String.utf8EncodeChar c, cs)

theorem length_readEscape_le {cs rest : List Char} {bytes : List UInt8}
    (h : readEscape? cs = some (bytes, rest)) : rest.length ≤ cs.length := by
  cases cs with
  | nil => simp [readEscape?] at h
  | cons letter cs =>
    rw [List.length_cons]
    simp only [readEscape?] at h
    split at h
    · simp only [Option.some.injEq, Prod.mk.injEq] at h
      rw [h.2]
      exact Nat.le_succ _
    · simp only [Option.bind_eq_bind, Option.bind_eq_some_iff, Option.some.injEq,
        Prod.mk.injEq] at h
      obtain ⟨width, -, ⟨n, tail⟩, hread, _, -, -, rfl⟩ := h
      exact Nat.le_succ_of_le (Hex.length_read_le hread)

theorem length_readUnit_lt {cs rest : List Char} {bytes : List UInt8}
    (h : readUnit? cs = some (bytes, rest)) : rest.length < cs.length := by
  cases cs with
  | nil => simp [readUnit?] at h
  | cons c cs =>
    rw [List.length_cons]
    rw [readUnit?] at h
    split_ifs at h with hquote hslash
    · exact Nat.lt_succ_of_le (length_readEscape_le h)
    · simp only [Option.some.injEq, Prod.mk.injEq] at h
      rw [h.2]
      exact Nat.lt_succ_self _

/-- The bytes that the inside of a double-quoted text stands for. -/
def unescape? (cs : List Char) : Option (List UInt8) :=
  if cs = [] then some []
  else
    match _h : readUnit? cs with
    | none => none
    | some (bytes, rest) => (unescape? rest).map (bytes ++ ·)
termination_by cs.length
decreasing_by exact length_readUnit_lt _h

theorem unescape_nil : unescape? [] = some [] := by
  rw [unescape?, if_pos rfl]

theorem unescape_unit {cs rest : List Char} {bytes : List UInt8}
    (h : readUnit? cs = some (bytes, rest)) :
    unescape? cs = (unescape? rest).map (bytes ++ ·) := by
  have hne : cs ≠ [] := by
    rintro rfl
    simp [readUnit?] at h
  rw [unescape?, if_neg hne]
  split
  · next hn => simp [h] at hn
  · next bytes' rest' hs =>
    rw [h, Option.some.injEq, Prod.mk.injEq] at hs
    rw [hs.1, hs.2]

/-! ## Escapes -/

theorem readUnit_itself {c : Char} (hquote : c ≠ '"') (hslash : c ≠ '\\') (cs : List Char) :
    readUnit? (c :: cs) = some (String.utf8EncodeChar c, cs) := by
  rw [readUnit?, if_neg hquote, if_neg hslash]

theorem readUnit_short {letter c : Char} (h : letterBytes.lookup letter = some c.toNat.toUInt8)
    (hc : c.toNat < 0x80) (cs : List Char) :
    readUnit? ('\\' :: letter :: cs) = some (String.utf8EncodeChar c, cs) := by
  rw [readUnit?, if_neg (by decide), if_pos rfl, utf8EncodeChar_ascii hc]
  simp only [readEscape?, h]

theorem readUnit_numbered {letter : Char} {width : Nat} {c : Char}
    (hletter : letterBytes.lookup letter = none)
    (hwidth : digitCounts.lookup letter = some width) (hc : c.toNat < 16 ^ width)
    (hbytes : numbered? letter c.toNat = some (String.utf8EncodeChar c)) (cs : List Char) :
    readUnit? (Escaped.numbered letter c.toNat width ++ cs) =
      some (String.utf8EncodeChar c, cs) := by
  rw [Escaped.numbered, List.cons_append, List.cons_append, readUnit?, if_neg (by decide),
    if_pos rfl]
  simp only [readEscape?, hletter, hwidth, Option.bind_eq_bind, Option.bind_some,
    Hex.read?_digits false hc, hbytes]

theorem toNat_toUInt8 {c : Char} (h : c.toNat < 0x80) : c.toUInt8.toNat = c.toNat :=
  Nat.mod_eq_of_lt (Nat.lt_trans h (by decide))

theorem numbered_scalar {letter : Char} (h : letter ≠ 'x') (c : Char) :
    numbered? letter c.toNat = some (String.utf8EncodeChar c) := by
  have hvalid : c.toNat.isValidChar := c.valid
  rw [numbered?, if_neg h, if_pos hvalid, Char.ofNat_toNat]

/-- The control characters that have a letter are read back from it. -/
theorem letterBytes_shortLetter {c letter : Char} (h : Escaped.shortLetter? c = some letter) :
    letterBytes.lookup letter = some c.toNat.toUInt8 := by
  unfold Escaped.shortLetter? at h
  split_ifs at h with h1 h2 h3 h4 h5 h6 h7 <;>
    simp only [Option.some.injEq] at h <;> subst h <;> subst c <;> rfl

theorem readUnit_ofChar (printable : Char → Bool) (asciiOnly : Bool) (c : Char) (cs : List Char) :
    readUnit? ((Escaped.ofChar printable asciiOnly c).chars ++ cs) =
      some (String.utf8EncodeChar c, cs) := by
  have hvalid : c.toNat < 0x110000 := by
    have hv : c.toNat.isValidChar := c.valid
    simp only [Nat.isValidChar] at hv
    omega
  unfold Escaped.ofChar
  by_cases hspecial : c = '"' ∨ c = '\\'
  · rw [if_pos hspecial]
    rcases hspecial with rfl | rfl
    · exact readUnit_short (c := '"') rfl (by decide) cs
    · exact readUnit_short (c := '\\') rfl (by decide) cs
  rw [if_neg hspecial]
  simp only [not_or] at hspecial
  obtain ⟨hquote, hslash⟩ := hspecial
  by_cases hascii : c.toNat < 0x80
  · rw [if_pos hascii]
    by_cases hgraphic : 0x20 ≤ c.toNat ∧ c.toNat < 0x7f
    · rw [if_pos hgraphic]
      exact readUnit_itself hquote hslash cs
    rw [if_neg hgraphic]
    cases hs : Escaped.shortLetter? c with
    | some letter => exact readUnit_short (letterBytes_shortLetter hs) hascii cs
    | none =>
      rw [Escaped.chars, toNat_toUInt8 hascii]
      refine readUnit_numbered rfl rfl (by omega) ?_ cs
      rw [utf8EncodeChar_ascii hascii]
      rfl
  rw [if_neg hascii]
  split
  · exact readUnit_itself hquote hslash cs
  · split
    · next hsmall => exact readUnit_numbered rfl rfl hsmall (numbered_scalar (by decide) c) cs
    · exact readUnit_numbered rfl rfl (by omega) (numbered_scalar (by decide) c) cs

/-- The inside of a double-quoted text. -/
def escaped (printable : Char → Bool) (asciiOnly : Bool) (s : String) : List Char :=
  s.toList.flatMap fun c => (Escaped.ofChar printable asciiOnly c).chars

theorem unescape_escaped (printable : Char → Bool) (asciiOnly : Bool) (s : String) :
    unescape? (escaped printable asciiOnly s) = some s.toUTF8.data.toList := by
  rw [data_toUTF8, escaped]
  induction s.toList with
  | nil => exact unescape_nil
  | cons c cs ih =>
    rw [List.flatMap_cons, List.flatMap_cons, unescape_unit (readUnit_ofChar _ _ c _), ih]
    rfl

/-! ## Characters of the output -/

/-- A printable character, given which characters beyond ASCII are. -/
def isPrintableBy (printable : Char → Bool) (c : Char) : Bool :=
  if c.toNat < 0x80 then decide (0x20 ≤ c.toNat ∧ c.toNat < 0x7f) else printable c

theorem isPrintableBy_table (c : Char) :
    isPrintableBy Unicode.isPrintable c = Unicode.isPrintable c := by
  unfold isPrintableBy Unicode.isPrintable
  split <;> rfl

theorem isPrintableBy_graphic (printable : Char → Bool) {c : Char}
    (h : 0x20 ≤ c.toNat ∧ c.toNat < 0x7f) : isPrintableBy printable c = true := by
  rw [isPrintableBy, if_pos (by omega), decide_eq_true h]

theorem shortLetter_range {c letter : Char} (h : Escaped.shortLetter? c = some letter) :
    0x20 ≤ letter.toNat ∧ letter.toNat < 0x7f := by
  unfold Escaped.shortLetter? at h
  split_ifs at h with h1 h2 h3 h4 h5 h6 h7 <;>
    simp only [Option.some.injEq] at h <;> subst h <;> decide

theorem numbered_range {letter : Char} (hletter : 0x20 ≤ letter.toNat ∧ letter.toNat < 0x7f)
    {width n : Nat} {x : Char} (h : x ∈ Escaped.numbered letter n width) :
    0x20 ≤ x.toNat ∧ x.toNat < 0x7f := by
  simp only [Escaped.numbered, List.mem_cons] at h
  rcases h with rfl | rfl | h
  · decide
  · exact hletter
  · exact Hex.digits_range h

theorem short_range {letter : Char} (hletter : 0x20 ≤ letter.toNat ∧ letter.toNat < 0x7f)
    {x : Char} (h : x ∈ (Escaped.short letter).chars) : 0x20 ≤ x.toNat ∧ x.toNat < 0x7f := by
  simp only [Escaped.chars, List.mem_cons, List.not_mem_nil, or_false] at h
  rcases h with rfl | rfl
  · decide
  · exact hletter

/-- An escape is made of graphic characters of ASCII, unless a printable character stands for
itself. -/
theorem mem_ofChar {printable : Char → Bool} {asciiOnly : Bool} {c x : Char}
    (h : x ∈ (Escaped.ofChar printable asciiOnly c).chars) :
    (0x20 ≤ x.toNat ∧ x.toNat < 0x7f) ∨
      (0x80 ≤ x.toNat ∧ printable x = true ∧ asciiOnly = false) := by
  unfold Escaped.ofChar at h
  by_cases hspecial : c = '"' ∨ c = '\\'
  · rw [if_pos hspecial] at h
    refine .inl (short_range ?_ h)
    rcases hspecial with rfl | rfl <;> decide
  rw [if_neg hspecial] at h
  by_cases hascii : c.toNat < 0x80
  · rw [if_pos hascii] at h
    by_cases hgraphic : 0x20 ≤ c.toNat ∧ c.toNat < 0x7f
    · rw [if_pos hgraphic, Escaped.chars, List.mem_singleton] at h
      exact .inl (h ▸ hgraphic)
    rw [if_neg hgraphic] at h
    cases hs : Escaped.shortLetter? c with
    | some letter =>
      rw [hs] at h
      exact .inl (short_range (shortLetter_range hs) h)
    | none =>
      rw [hs] at h
      exact .inl (numbered_range (by decide) h)
  rw [if_neg hascii] at h
  split_ifs at h with hprintable hsmall
  · rw [Escaped.chars, List.mem_singleton] at h
    simp only [Bool.and_eq_true, Bool.not_eq_true'] at hprintable
    exact .inr (h ▸ ⟨Nat.le_of_not_lt hascii, hprintable⟩)
  · exact .inl (numbered_range (by decide) h)
  · exact .inl (numbered_range (by decide) h)

theorem mem_doubleQuoted {printable : Char → Bool} {asciiOnly : Bool} {s : String} {x : Char}
    (h : x ∈ doubleQuoted printable asciiOnly s) :
    (0x20 ≤ x.toNat ∧ x.toNat < 0x7f) ∨
      (0x80 ≤ x.toNat ∧ printable x = true ∧ asciiOnly = false) := by
  simp only [doubleQuoted, List.cons_append, List.mem_cons, List.mem_append, List.mem_flatMap,
    List.not_mem_nil, or_false] at h
  rcases h with rfl | ⟨c, -, h⟩ | rfl
  · exact .inl (by decide)
  · exact mem_ofChar h
  · exact .inl (by decide)

theorem mem_of_canBackquote {s : String} (h : canBackquote s = true) {c : Char}
    (hc : c ∈ s.toList) :
    c ≠ backquote ∧ (0x20 ≤ c.toNat ∨ c = '\t') ∧ c ≠ '\x7f' ∧ c ≠ byteOrderMark := by
  have hall := List.all_eq_true.mp h c hc
  simp only [Bool.and_eq_true, Bool.or_eq_true, bne_iff_ne, beq_iff_eq, decide_eq_true_eq] at hall
  obtain ⟨⟨⟨hmark, hback⟩, hdelete⟩, hcontrol⟩ := hall
  exact ⟨hback, hcontrol, hdelete, hmark⟩

/-! ## Quoted texts -/

/-- A text that is quoted without a width. -/
def quotedText (printable : Char → Bool) (flags : Flags) (precision : Option Nat) (s : String) :
    String :=
  Edit.allAdded (quotedWith printable flags none precision s)

theorem quotedText_raw {printable : Char → Bool} {flags : Flags} {precision : Option Nat}
    {s : String} (h : flags.sharp = true ∧ canBackquote (cut precision s) = true) :
    (quotedText printable flags precision s).toList =
      backquote :: (cut precision s).toList ++ [backquote] := by
  simp only [quotedText, quotedWith, h.1, h.2, Bool.and_self, if_true, allAdded_pad_none,
    Edit.allAdded_cons, Edit.allAdded_nil, Edit.added, String.toList_append,
    String.toList_singleton, String.toList_empty, List.append_nil, List.nil_append,
    List.cons_append]

theorem quotedText_escaped {printable : Char → Bool} {flags : Flags} {precision : Option Nat}
    {s : String} (h : ¬ (flags.sharp = true ∧ canBackquote (cut precision s) = true)) :
    (quotedText printable flags precision s).toList =
      doubleQuoted printable flags.plus (cut precision s) := by
  rw [← Bool.and_eq_true] at h
  rw [quotedText, quotedWith, if_neg h, allAdded_pad_none, allAdded_spelled, String.toList_ofList]

/-- The first character tells how a text is quoted, and what is behind it tells the text. -/
theorem cut_eq_of_quotedText {printable : Char → Bool} {flags : Flags} {precision : Option Nat}
    {s s' : String}
    (h : quotedText printable flags precision s = quotedText printable flags precision s') :
    cut precision s = cut precision s' := by
  have hlist := congrArg String.toList h
  by_cases hs : flags.sharp = true ∧ canBackquote (cut precision s) = true
  · by_cases hs' : flags.sharp = true ∧ canBackquote (cut precision s') = true
    · rw [quotedText_raw hs, quotedText_raw hs', List.cons_append, List.cons_append] at hlist
      exact String.toList_inj.mp (List.append_cancel_right (List.cons.inj hlist).2)
    · rw [quotedText_raw hs, quotedText_escaped hs', doubleQuoted] at hlist
      exact absurd (List.cons.inj hlist).1 (by decide)
  · by_cases hs' : flags.sharp = true ∧ canBackquote (cut precision s') = true
    · rw [quotedText_escaped hs, quotedText_raw hs', doubleQuoted] at hlist
      exact absurd (List.cons.inj hlist).1 (by decide)
    · rw [quotedText_escaped hs, quotedText_escaped hs', doubleQuoted, doubleQuoted,
        List.cons_append, List.cons_append] at hlist
      have hinside : escaped printable flags.plus (cut precision s) =
          escaped printable flags.plus (cut precision s') :=
        List.append_cancel_right (List.cons.inj hlist).2
      have hread := congrArg unescape? hinside
      rw [unescape_escaped, unescape_escaped, Option.some.injEq, Array.toList_inj] at hread
      exact String.toByteArray_inj.mp (ByteArray.ext hread)

/-- Quoted text can be read back, whichever characters beyond ASCII are printable. -/
theorem quoted_lossless (printable : Char → Bool) (flags : Flags) (precision : Option Nat) :
    (∀ s, (∀ b : Buffer, (b.applyAll (quotedWith printable flags none precision s)).bytes =
        b.bytes ++ (quotedText printable flags precision s).toUTF8) ∧
      (cut precision s).toList = s.toList.take (precision.getD s.length) ∧
      if flags.sharp = true ∧ canBackquote (cut precision s) = true then
        (quotedText printable flags precision s).toList =
            backquote :: (cut precision s).toList ++ [backquote] ∧
          ∀ c ∈ (cut precision s).toList,
            c ≠ backquote ∧ (0x20 ≤ c.toNat ∨ c = '\t') ∧ c ≠ '\x7f' ∧ c ≠ byteOrderMark
      else
        ∃ inside, (quotedText printable flags precision s).toList = '"' :: inside ++ ['"'] ∧
          unescape? inside = some (cut precision s).toUTF8.data.toList ∧
          ∀ c ∈ (quotedText printable flags precision s).toList,
            isPrintableBy printable c = true ∧ (flags.plus = true → c.toNat < 0x80)) ∧
    ∀ s s', quotedText printable flags precision s = quotedText printable flags precision s' →
      cut precision s = cut precision s' := by
  refine ⟨fun s => ⟨fun b => b.bytes_applyAll _, ?_, ?_⟩, fun s s' h => cut_eq_of_quotedText h⟩
  · rw [cut_eq, String.toList_ofList]
  · split
    · next h => exact ⟨quotedText_raw h, fun c hc => mem_of_canBackquote h.2 hc⟩
    · next h =>
      refine ⟨escaped printable flags.plus (cut precision s), quotedText_escaped h,
        unescape_escaped _ _ _, ?_⟩
      intro c hc
      rw [quotedText_escaped h] at hc
      rcases mem_doubleQuoted hc with hgraphic | ⟨hbeyond, hprintable, hascii⟩
      · exact ⟨isPrintableBy_graphic printable hgraphic, fun _ => by omega⟩
      · refine ⟨?_, fun hplus => by simp [hplus] at hascii⟩
        rw [isPrintableBy, if_neg (by omega), hprintable]

theorem quoted_lossless_accent :
    quotedText Unicode.isPrintable { plus := true } (some 2) "é\nx" =
        quotedText Unicode.isPrintable { plus := true } (some 2) "é\ny" ∧
      cut (some 2) "é\nx" = cut (some 2) "é\ny" ∧
      ∀ c ∈ (quotedText Unicode.isPrintable { plus := true } (some 2) "é\nx").toList,
        Unicode.isPrintable c = true ∧ c.toNat < 0x80 := by
  have h : quotedText Unicode.isPrintable { plus := true } (some 2) "é\nx" =
      quotedText Unicode.isPrintable { plus := true } (some 2) "é\ny" := by decide
  have hlossless := quoted_lossless Unicode.isPrintable { plus := true } (some 2)
  refine ⟨h, hlossless.2 _ _ h, ?_⟩
  have hquoted := (hlossless.1 "é\nx").2.2
  rw [if_neg (by simp)] at hquoted
  obtain ⟨inside, -, -, hprintable⟩ := hquoted
  intro c hc
  rw [← isPrintableBy_table]
  exact ⟨(hprintable c hc).1, (hprintable c hc).2 rfl⟩

end PercentFormat.Show
