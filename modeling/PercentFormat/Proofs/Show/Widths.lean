import PercentFormat.Proofs.Output.Markers
import PercentFormat.Proofs.Show.HexGroups

/-!
# Widths

A width only pads. The length that the padding is computed from is foreseen before anything is
written, from the escapes of a text or from the number of its bytes, and it is the number of
characters that are shown. So a text with a width is the text without it and fill characters on one
side. A compiled format never puts zeros to the right.
-/

namespace PercentFormat

namespace Show

/-- A text with as many fill characters as it is short of a width. -/
def widened (flags : Flags) (width : Nat) (body : String) : String :=
  let fill := filler flags (width - body.length)
  if flags.minus then body ++ fill else fill ++ body

theorem length_filler (flags : Flags) (n : Nat) : (filler flags n).length = n := by
  rw [filler, String.length_ofList, List.length_replicate]

theorem length_widened (flags : Flags) (width : Nat) (body : String) :
    (widened flags width body).length = max width body.length := by
  have hsum : width - body.length + body.length = max width body.length := by omega
  unfold widened
  split
  · rw [String.length_append, length_filler, Nat.add_comm, hsum]
  · rw [String.length_append, length_filler, hsum]

theorem widened_zero (flags : Flags) (body : String) : widened flags 0 body = body := by
  simp [widened]

theorem allAdded_pad_some {body : List Edit} {size : Nat}
    (h : (Edit.allAdded body).length = size) (flags : Flags) (width : Nat) :
    Edit.allAdded (pad flags (some width) size body) =
      widened flags width (Edit.allAdded body) := by
  rw [allAdded_pad, Option.getD_some, widened, h]

/-- Where the length was foreseen, characters are padded as they are shown. -/
theorem allAdded_pad_spelled {size : Nat} {cs : List Char} (h : cs.length = size) (flags : Flags)
    (width : Nat) :
    Edit.allAdded (pad flags (some width) size (spelled size cs)) =
      widened flags width (Edit.allAdded (pad flags none size (spelled size cs))) := by
  have hsize : (Edit.allAdded (spelled size cs)).length = size := by
    rw [allAdded_spelled, String.length_ofList, h]
  rw [allAdded_pad_some hsize, allAdded_pad_none]

/-! ## Foreseen lengths -/

theorem Escaped.length_numbered (letter : Char) (value width : Nat) :
    (numbered letter value width).length = width + 2 := by
  rw [numbered, List.length_cons, List.length_cons, Hex.length_digits]

theorem Escaped.length_chars (e : Escaped) : e.chars.length = e.charLen := by
  cases e with
  | itself c => rfl
  | short letter => rfl
  | byte value => exact length_numbered 'x' value.toNat 2
  | unicode value => exact length_numbered 'u' value.toNat 4
  | longUnicode value => exact length_numbered 'U' value.toNat 8

theorem length_doubleQuoted (printable : Char → Bool) (asciiOnly : Bool) (s : String) :
    (doubleQuoted printable asciiOnly s).length = quotedLength printable asciiOnly s := by
  have hinside : (s.toList.flatMap fun c => (Escaped.ofChar printable asciiOnly c).chars).length =
      s.toList.foldr (fun c n => (Escaped.ofChar printable asciiOnly c).charLen + n) 0 := by
    induction s.toList with
    | nil => rfl
    | cons c cs ih =>
      rw [List.flatMap_cons, List.length_append, Escaped.length_chars, ih, List.foldr_cons]
  rw [doubleQuoted, List.length_append, List.length_cons, hinside, List.length_singleton,
    quotedLength]
  omega

theorem length_hexMark (flags : Flags) : (hexMark flags).length = if flags.sharp then 2 else 0 := by
  unfold hexMark
  split <;> rfl

theorem length_byte (upper : Bool) (b : UInt8) : (Hex.byte upper b).length = 2 :=
  Hex.length_digits upper b.toNat 2

theorem length_bytes (upper : Bool) (bytes : List UInt8) :
    (bytes.flatMap (Hex.byte upper)).length = 2 * bytes.length := by
  induction bytes with
  | nil => rfl
  | cons b bytes ih =>
    rw [List.flatMap_cons, List.length_append, ih, length_byte, List.length_cons]
    omega

/-- Each byte has its mark and its digits, and each but the last a space behind it. -/
theorem length_spaced (mark : List Char) (upper : Bool) {bytes : List UInt8} (h : bytes ≠ []) :
    (spaced mark upper bytes).length =
      bytes.length * (mark.length + 2) + (bytes.length - 1) := by
  fun_induction spaced mark upper bytes with
  | case1 => exact absurd rfl h
  | case2 b => simp [length_byte]
  | case3 b bytes hne ih =>
    have hpos : 0 < bytes.length := List.length_pos_of_ne_nil hne
    rw [List.length_append, List.length_append, List.length_cons, ih hne, length_byte,
      List.length_cons, Nat.succ_mul]
    omega

theorem length_hexChars (flags : Flags) {bytes : List UInt8} (h : bytes ≠ []) :
    (hexChars flags bytes).length = encodedLength flags bytes.length := by
  unfold hexChars encodedLength
  by_cases hspace : flags.space = true
  · rw [if_pos hspace, if_pos hspace, length_spaced _ _ h, length_hexMark]
    split <;> omega
  · rw [if_neg hspace, if_neg hspace, List.length_append, length_hexMark, length_bytes]
    split <;> omega

/-! ## Formatters -/

section

variable (flags : Flags) (width : Nat) (precision : Option Nat) (s : String)

theorem allAdded_plain :
    Edit.allAdded (plain flags (some width) precision s) =
      widened flags width (Edit.allAdded (plain flags none precision s)) := by
  have hbody : (Edit.allAdded [.text (cut precision s)]).length = (cut precision s).length := by
    rw [Edit.allAdded_cons, Edit.allAdded_nil, Edit.added, String.append_empty]
  have hbare : plain flags none precision s = [.text (cut precision s)] := rfl
  by_cases hw : width = 0
  · subst hw
    rw [widened_zero]
    rfl
  · have hpad : plain flags (some width) precision s =
        pad flags (some width) (cut precision s).length [.text (cut precision s)] := by
      simp only [plain, Option.getD_some, if_neg hw]
    rw [hpad, hbare, allAdded_pad_some hbody]

theorem allAdded_quotedWith (printable : Char → Bool) :
    Edit.allAdded (quotedWith printable flags (some width) precision s) =
      widened flags width (Edit.allAdded (quotedWith printable flags none precision s)) := by
  unfold quotedWith
  by_cases hraw : (flags.sharp && canBackquote (cut precision s)) = true
  · have hsize : (Edit.allAdded [.char backquote, .text (cut precision s),
        .char backquote]).length = (cut precision s).length + 2 := by
      simp only [Edit.allAdded_cons, Edit.allAdded_nil, Edit.added, String.length_append,
        String.length_singleton, String.length_empty]
      omega
    rw [if_pos hraw, if_pos hraw, allAdded_pad_some hsize, allAdded_pad_none]
  · rw [if_neg hraw, if_neg hraw]
    exact allAdded_pad_spelled (length_doubleQuoted ..) flags width

theorem allAdded_hexBytes :
    Edit.allAdded (hexBytes flags (some width) precision s) =
      widened flags width (Edit.allAdded (hexBytes flags none precision s)) := by
  rw [hexBytes_eq, hexBytes_eq]
  by_cases hempty : shownBytes precision s = []
  · have hfill (n : Nat) : Edit.allAdded [padding flags n] = filler flags n := by
      rw [Edit.allAdded_cons, Edit.allAdded_nil, added_padding, String.append_empty]
    rw [if_pos hempty, if_pos hempty, hfill, hfill]
    simp [widened]
  · rw [if_neg hempty, if_neg hempty]
    exact allAdded_pad_spelled (length_hexChars flags hempty) flags width

end

end Show

/-! ## Tokens -/

namespace Directive

/-- A directive without its number for the width. A star gives no width, so it stays. -/
def unpadded (d : Directive) : Directive :=
  match d.width with
  | some (.fixed _) => { d with width := none }
  | _ => d

theorem unpadded_cases (d : Directive) :
    (∃ n, d.width = some (.fixed n) ∧ d.unpadded = { d with width := none }) ∨
      d.unpadded = d := by
  unfold unpadded
  split
  · next n hn => exact .inl ⟨n, hn, rfl⟩
  · exact .inr rfl

theorem shown_of_fixed {d : Directive} {n : Nat} (h : d.width = some (.fixed n))
    (letter arg : String) :
    ∃ width, d.shown letter arg =
      Show.widened d.flags width (Directive.shown { d with width := none } letter arg) := by
  have hquoted : Show.quoted = Show.quotedWith Unicode.isPrintable := rfl
  simp only [shown, h, hquoted, Show.Measure.number?]
  cases d.verb with
  | str => exact ⟨n, Show.allAdded_plain ..⟩
  | quoted => exact ⟨n, Show.allAdded_quotedWith ..⟩
  | hex => exact ⟨n, Show.allAdded_hexBytes ..⟩
  | bad => exact ⟨0, (Show.widened_zero _ _).symm⟩

/-- The text of a directive is padded to some width, which is zero for diagnostics. -/
theorem exists_ownText_eq (d : Directive) (args : List String) (letter : String) :
    ∃ width, d.ownText args letter =
      Show.widened d.flags width (d.unpadded.ownText args letter) := by
  have hsame (body : String) : ∃ width, body = Show.widened d.flags width body :=
    ⟨0, (Show.widened_zero _ _).symm⟩
  rcases d.unpadded_cases with ⟨n, hn, heq⟩ | heq
  · have hstars : [none, d.precision].filterMap Grammar.argument? =
        [d.width, d.precision].filterMap Grammar.argument? := by
      rw [hn]
      rfl
    rw [heq]
    by_cases ho : ∃ i ∈ [d.width, d.precision].filterMap Grammar.argument?, args.length ≤ i
    · rw [ownText, if_pos ho, ownText, if_pos (hstars ▸ ho)]
      exact hsame _
    · rw [ownText, if_neg ho, ownText, if_neg (hstars ▸ ho)]
      cases args[d.arg]? with
      | none => exact hsame _
      | some arg => exact shown_of_fixed hn letter arg
  · rw [heq]
    exact hsame _

end Directive

/-- The text of a token of a template. Fill characters stand between the markers of stars and what
the directive shows without a width, or spaces behind it. -/
inductive Token.Padded (t : Template) (args : List String) : Token → String → Prop
  | literal (span : Span) : Padded t args (.literal span) (span.cut t.text)
  | left {span : Span} {d : Directive} (flush : d.flags.minus = false) (n : Nat) :
      Padded t args (.directive span d)
        (Measure.starText "%!(BADWIDTH)" d.width ++ Measure.starText "%!(BADPREC)" d.precision ++
          (Show.filler d.flags n ++ d.unpadded.ownText args (span.cut t.text)))
  | right {span : Span} {d : Directive} (flush : d.flags.minus = true) (n : Nat) :
      Padded t args (.directive span d)
        (Measure.starText "%!(BADWIDTH)" d.width ++ Measure.starText "%!(BADPREC)" d.precision ++
          (d.unpadded.ownText args (span.cut t.text) ++ String.ofList (List.replicate n ' ')))

namespace Template

variable {t : Template}

theorem WellFormed.padded (h : t.WellFormed) (args : List String) {k : Token} (hk : k ∈ t.tokens) :
    k.Padded t args (Edit.allAdded (t.tokenEdits args k)) := by
  cases k with
  | literal span =>
    rw [tokenEdits, Edit.allAdded_cons, Edit.allAdded_nil, Edit.added, String.append_empty]
    exact .literal span
  | directive span d =>
    obtain ⟨c, -, hd⟩ := h.directive span d hk
    obtain ⟨width, hwidth⟩ := d.exists_ownText_eq args (span.cut t.text)
    rw [tokenEdits, allAdded_directive, hwidth, Show.widened]
    cases hminus : d.flags.minus with
    | false => exact .left hminus _
    | true =>
      have hzero : d.flags.zero = false := by
        rw [← Bool.not_eq_true]
        exact fun hz => hd.padding ⟨hminus, hz⟩
      rw [if_pos rfl, Show.filler, hzero]
      exact .right hminus _

/-- A rendering is the texts of the tokens and of the surplus arguments. -/
theorem WellFormed.render_padded (h : t.WellFormed) (args : List String) :
    ∃ texts, List.Forall₂ (Token.Padded t args) t.tokens texts ∧
      t.render args = String.join texts ++ surplusText (args.drop t.required) := by
  have htexts : List.Forall₂ (fun k s => Edit.allAdded (t.tokenEdits args k) = s) t.tokens
      (t.tokens.map fun k => Edit.allAdded (t.tokenEdits args k)) := by
    rw [List.forall₂_map_right_iff, List.forall₂_same]
    exact fun k _ => rfl
  refine ⟨t.tokens.map fun k => Edit.allAdded (t.tokenEdits args k), ?_, ?_⟩
  · rw [List.forall₂_map_right_iff, List.forall₂_same]
    exact fun k hk => h.padded args hk
  · rw [render_eq_tokens, Edit.allAdded_flatMap htexts]

end Template

namespace Show

/-- A width does nothing but pad, and no rendering is padded with zeros on the right. -/
theorem width_only_pads (printable : Char → Bool) :
    (∀ fmt ∈ [plain, quotedWith printable, hexBytes], ∀ flags width precision s, ∃ body,
      (∀ b : Buffer, (b.applyAll (fmt flags none precision s)).bytes = b.bytes ++ body.toUTF8) ∧
      (∀ b : Buffer, (b.applyAll (fmt flags (some width) precision s)).bytes =
        b.bytes ++ (widened flags width body).toUTF8) ∧
      (widened flags width body).length = max width body.length) ∧
    ∀ format,
      (∀ span d, .directive span d ∈ (Template.compile format).tokens →
        ¬ (d.flags.minus = true ∧ d.flags.zero = true)) ∧
      ∀ args, ∃ texts,
        List.Forall₂ (Token.Padded (Template.compile format) args)
          (Template.compile format).tokens texts ∧
        (Template.compile format).render args = String.join texts ++
          surplusText (args.drop (Template.compile format).required) := by
  have hfmt : ∀ fmt ∈ [plain, quotedWith printable, hexBytes], ∀ flags width precision s,
      Edit.allAdded (fmt flags (some width) precision s) =
        widened flags width (Edit.allAdded (fmt flags none precision s)) := by
    intro fmt hmem flags width precision s
    simp only [List.mem_cons, List.not_mem_nil, or_false] at hmem
    rcases hmem with rfl | rfl | rfl
    · exact allAdded_plain flags width precision s
    · exact allAdded_quotedWith flags width precision s printable
    · exact allAdded_hexBytes flags width precision s
  refine ⟨?_, ?_⟩
  · intro fmt hmem flags width precision s
    refine ⟨Edit.allAdded (fmt flags none precision s), ?_, ?_, length_widened _ _ _⟩
    · exact fun b => b.bytes_applyAll _
    · intro b
      rw [← hfmt fmt hmem, b.bytes_applyAll]
  · intro format
    have h := Template.wellFormed_compile format
    refine ⟨?_, fun args => h.render_padded args⟩
    intro span d hk
    obtain ⟨c, -, hd⟩ := h.directive span d hk
    exact hd.padding

theorem width_only_pads_right :
    (∃ body, (∀ b : Buffer, (b.applyAll (hexBytes { minus := true, zero := true, space := true }
        none none "é")).bytes = b.bytes ++ body.toUTF8) ∧
      (∀ b : Buffer, (b.applyAll (hexBytes { minus := true, zero := true, space := true }
        (some 7) none "é")).bytes =
          b.bytes ++ (widened { minus := true, zero := true, space := true } 7 body).toUTF8) ∧
      (widened { minus := true, zero := true, space := true } 7 body).length =
        max 7 body.length) ∧
    .directive ⟨0, 1⟩ ⟨.quoted, { minus := true }, some (.fixed 5), none, 0⟩ ∈
      (Template.compile "%0-05q").tokens ∧
    ¬ (({ minus := true } : Flags).minus = true ∧ ({ minus := true } : Flags).zero = true) := by
  have h := width_only_pads Unicode.isPrintable
  have hmem : .directive ⟨0, 1⟩ ⟨.quoted, { minus := true }, some (.fixed 5), none, 0⟩ ∈
      (Template.compile "%0-05q").tokens := by decide +kernel
  exact ⟨h.1 hexBytes (by simp) _ 7 none "é", hmem, (h.2 _).1 _ _ hmem⟩

end Show

end PercentFormat
