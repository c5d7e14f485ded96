import Mathlib.Algebra.Group.Nat.Defs
import PercentFormat.Caching.Threshold
import PercentFormat.Proofs.Text.Decimal
import PercentFormat.Proofs.Text.Trimming

/-!
# Texts of thresholds

A threshold is read back from its text. Of all other texts the names and the numerals of 64 bits ask
for a threshold of their own, in any case and with any white space around them.
-/

namespace PercentFormat.Threshold

def names : List (String × Threshold) :=
  [("always", always), ("default", always), ("repetitions", repetitions), ("repeat", repetitions),
   ("disabled", disabled), ("never", disabled), ("off", disabled)]

/-- The numerals of 64 bits. -/
structure IsNumeral (digits : List Char) : Prop where
  nonempty : digits ≠ []
  isDigit : ∀ c ∈ digits, c.isDigit = true
  fits : Nat.ofDigitChars 10 digits 0 < 2 ^ 64

/-- The texts that ask for a threshold: its names, and numerals that may have a plus sign. -/
inductive Spells : List Char → Threshold → Prop
  | name {cs : List Char} {name : String} {t : Threshold} (mem : (name, t) ∈ names)
      (same : SameLetters cs name.toList) : Spells cs t
  | number {sign digits : List Char} (hsign : sign = [] ∨ sign = ['+'])
      (numeral : IsNumeral digits) :
      Spells (sign ++ digits) ⟨(Nat.ofDigitChars 10 digits 0).toUInt64⟩

/-- Some texts that look like a threshold and are none: no text, a negative number, a number of more
than 64 bits. -/
inductive Misspelled : List Char → Prop
  | nothing : Misspelled []
  | negative (cs : List Char) : Misspelled ('-' :: cs)
  | large {sign digits : List Char} (hsign : sign = [] ∨ sign = ['+'])
      (isDigit : ∀ c ∈ digits, c.isDigit = true) (h : 2 ^ 64 ≤ Nat.ofDigitChars 10 digits 0) :
      Misspelled (sign ++ digits)

/-! ## Numerals -/

/-- Signs and digits have no case. -/
theorem map_toLower_eq_iff {cs ds : List Char} (h : ∀ d ∈ ds, d.toNat < 0x41) :
    cs.map Char.toLower = ds ↔ cs = ds := by
  have hchar {c d : Char} (hd : d.toNat < 0x41) : c.toLower = d ↔ c = d := by
    constructor
    · rintro rfl
      rcases toLower_cases c with hc | ⟨-, hl⟩
      · exact hc.symm
      · omega
    · rintro rfl
      rcases toLower_cases c with hc | ⟨hc, -⟩
      · exact hc
      · omega
  induction cs generalizing ds with
  | nil => rfl
  | cons c cs ih =>
    cases ds with
    | nil => simp
    | cons d ds =>
      obtain ⟨hd, hds⟩ := List.forall_mem_cons.mp h
      rw [List.map_cons, List.cons.injEq, List.cons.injEq]
      exact and_congr (hchar hd) (ih hds)

theorem IsNumeral.toNat_lt {sign digits : List Char} (h : IsNumeral digits)
    (hsign : sign = [] ∨ sign = ['+']) : ∀ d ∈ sign ++ digits, d.toNat < 0x41 := by
  have hdigits : ∀ d ∈ digits, d.toNat < 0x41 := by
    intro d hd
    have hr := Decimal.isDigit_range (h.isDigit d hd)
    omega
  rcases hsign with rfl | rfl
  · exact hdigits
  · exact List.forall_mem_cons.mpr ⟨by decide, hdigits⟩

theorem IsNumeral.head_ne {digits : List Char} (h : IsNumeral digits) (rest : List Char) :
    digits ≠ '+' :: rest := by
  rintro rfl
  exact absurd (h.isDigit '+' List.mem_cons_self) (by decide)

theorem value?_fits {digits : List Char} {n : UInt64} :
    (match Decimal.value? digits with
      | some m => if m < UInt64.size then some m.toUInt64 else none
      | none => none) = some n ↔
      IsNumeral digits ∧ n = (Nat.ofDigitChars 10 digits 0).toUInt64 := by
  have hvalue : Decimal.valueFrom 0 digits = Nat.ofDigitChars 10 digits 0 := rfl
  constructor
  · intro hn
    split at hn
    · next m hm =>
      obtain ⟨hne, hall, rfl⟩ := Decimal.value?_eq_some_iff.mp hm
      rw [Option.ite_none_right_eq_some, Option.some.injEq] at hn
      exact ⟨⟨hne, hall, hvalue ▸ hn.1⟩, hn.2.symm⟩
    · simp at hn
  · rintro ⟨⟨hne, hall, hfits⟩, rfl⟩
    simp only [Decimal.value?_eq_some_iff.mpr ⟨hne, hall, hvalue⟩]
    exact if_pos hfits

theorem number?_eq_some_iff {cs : List Char} {n : UInt64} :
    number? cs = some n ↔ ∃ sign digits, (sign = [] ∨ sign = ['+']) ∧ cs = sign ++ digits ∧
      IsNumeral digits ∧ n = (Nat.ofDigitChars 10 digits 0).toUInt64 := by
  have hsigned (digits : List Char) : number? ('+' :: digits) = some n ↔
      IsNumeral digits ∧ n = (Nat.ofDigitChars 10 digits 0).toUInt64 := value?_fits
  have hunsigned (h : ∀ rest, cs ≠ '+' :: rest) : number? cs = some n ↔
      IsNumeral cs ∧ n = (Nat.ofDigitChars 10 cs 0).toUInt64 := by
    rw [← value?_fits]
    unfold number?
    split
    · next rest => exact absurd rfl (h rest)
    · rfl
  constructor
  · intro hn
    by_cases hplus : ∃ rest, cs = '+' :: rest
    · obtain ⟨digits, rfl⟩ := hplus
      exact ⟨['+'], digits, .inr rfl, rfl, (hsigned digits).mp hn⟩
    · rw [not_exists] at hplus
      exact ⟨[], cs, .inl rfl, rfl, (hunsigned hplus).mp hn⟩
  · rintro ⟨sign, digits, rfl | rfl, rfl, hnumeral, hn⟩
    · exact (hunsigned hnumeral.head_ne).mpr ⟨hnumeral, hn⟩
    · exact (hsigned digits).mpr ⟨hnumeral, hn⟩

theorem number?_toLower (cs : List Char) : number? (cs.map Char.toLower) = number? cs := by
  ext n
  rw [number?_eq_some_iff, number?_eq_some_iff]
  refine exists_congr fun sign => exists_congr fun digits => ?_
  refine and_congr_right fun hsign => and_congr_left fun hnumeral => ?_
  exact map_toLower_eq_iff (hnumeral.1.toNat_lt hsign)

/-! ## Reading -/

theorem toLower_name {name : String} {t : Threshold} (h : (name, t) ∈ names) :
    name.toList.map Char.toLower = name.toList := by
  have hall : ∀ p ∈ names, p.1.toList.map Char.toLower = p.1.toList := by decide +kernel
  exact hall (name, t) h

theorem number?_name {name : String} {t : Threshold} (h : (name, t) ∈ names) :
    number? name.toList = none := by
  have hall : ∀ p ∈ names, number? p.1.toList = none := by decide +kernel
  exact hall (name, t) h

theorem ofText_of_name {s name : String} {t : Threshold} (h : (name, t) ∈ names)
    (hs : SameLetters (Unicode.trim s.toList) name.toList) : ofText s = t := by
  rw [SameLetters, toLower_name h] at hs
  simp only [ofText, hs]
  simp only [names, List.mem_cons, Prod.mk.injEq, List.not_mem_nil, or_false] at h
  rcases h with ⟨rfl, rfl⟩ | ⟨rfl, rfl⟩ | ⟨rfl, rfl⟩ | ⟨rfl, rfl⟩ | ⟨rfl, rfl⟩ | ⟨rfl, rfl⟩ |
    ⟨rfl, rfl⟩ <;> decide +kernel

theorem ofText_of_unnamed {s : String}
    (h : ∀ p ∈ names, ¬ SameLetters (Unicode.trim s.toList) p.1.toList) :
    ofText s = (number? (Unicode.trim s.toList)).elim always mk := by
  have hne (name : String) (t : Threshold) (hmem : (name, t) ∈ names) :
      (Unicode.trim s.toList).map Char.toLower ≠ name.toList := by
    intro heq
    exact h _ hmem (heq.trans (toLower_name hmem).symm)
  have halways := hne "always" always (by simp [names])
  have hdefault := hne "default" always (by simp [names])
  have hrepetitions := hne "repetitions" repetitions (by simp [names])
  have hrepeat := hne "repeat" repetitions (by simp [names])
  have hdisabled := hne "disabled" disabled (by simp [names])
  have hnever := hne "never" disabled (by simp [names])
  have hoff := hne "off" disabled (by simp [names])
  simp only [ofText, halways, hdefault, hrepetitions, hrepeat, hdisabled, hnever, hoff, or_self,
    if_false, number?_toLower]
  cases number? (Unicode.trim s.toList) <;> rfl

theorem ofText_of_spells {s : String} {t : Threshold} (h : Spells (Unicode.trim s.toList) t) :
    ofText s = t := by
  generalize hcs : Unicode.trim s.toList = cs at h
  cases h with
  | name mem same => exact ofText_of_name mem (hcs ▸ same)
  | @number sign digits hsign numeral =>
    have hn := number?_eq_some_iff.mpr ⟨sign, digits, hsign, rfl, numeral, rfl⟩
    have hunnamed : ∀ p ∈ names, ¬ SameLetters (Unicode.trim s.toList) p.1.toList := by
      intro p hp hsame
      rw [SameLetters, toLower_name hp, hcs] at hsame
      rw [← number?_toLower, hsame, number?_name hp] at hn
      simp at hn
    rw [ofText_of_unnamed hunnamed, hcs, hn]
    rfl

theorem spells_of_ofText {s : String} {t : Threshold} (h : ofText s = t) (ht : t ≠ always) :
    Spells (Unicode.trim s.toList) t := by
  by_cases hnamed : ∃ p ∈ names, SameLetters (Unicode.trim s.toList) p.1.toList
  · obtain ⟨⟨name, t'⟩, hp, hsame⟩ := hnamed
    obtain rfl : t' = t := (ofText_of_name hp hsame).symm.trans h
    exact .name hp hsame
  · have hunnamed : ∀ p ∈ names, ¬ SameLetters (Unicode.trim s.toList) p.1.toList :=
      fun p hp hsame => hnamed ⟨p, hp, hsame⟩
    rw [ofText_of_unnamed hunnamed] at h
    cases hn : number? (Unicode.trim s.toList) with
    | none =>
      rw [hn] at h
      exact absurd h.symm ht
    | some n =>
      rw [hn] at h
      obtain ⟨sign, digits, hsign, hcs, hnumeral, rfl⟩ := number?_eq_some_iff.mp hn
      rw [hcs, ← h]
      exact .number hsign hnumeral

/-- A text that asks for no threshold of its own asks for `always`. -/
theorem ofText_eq_always_iff (s : String) :
    ofText s = always ↔ ∀ t, Spells (Unicode.trim s.toList) t → t = always := by
  constructor
  · intro h t ht
    exact (ofText_of_spells ht).symm.trans h
  · intro h
    by_contra hne
    exact hne (h _ (spells_of_ofText rfl hne))

theorem ofText_trimmed {s s' : String}
    (h : SameLetters (Unicode.trim s.toList) (Unicode.trim s'.toList)) : ofText s = ofText s' := by
  rw [SameLetters] at h
  rw [ofText, ofText, h]

/-- Names begin with a letter, so what begins otherwise is no name in any case. -/
theorem not_sameLetters_name {cs : List Char} {name : String} {t : Threshold}
    (h : (name, t) ∈ names) (hcs : ∀ c ∈ cs.head?, c.toNat < 0x41) :
    ¬ SameLetters cs name.toList := by
  have hall : ∀ p ∈ names, p.1.toList.head?.any (0x61 ≤ ·.toNat) = true := by decide +kernel
  intro hsame
  obtain ⟨d, hd, hcode⟩ := (Option.any_eq_true ..).mp (hall (name, t) h)
  have hletter := of_decide_eq_true hcode
  rw [SameLetters, toLower_name h] at hsame
  rw [← hsame, List.head?_map, Option.map_eq_some_iff] at hd
  obtain ⟨c, hc, rfl⟩ := hd
  have hsmall := hcs c hc
  rcases toLower_cases c with hsmaller | ⟨hcapital, -⟩
  · rw [hsmaller] at hletter
    omega
  · omega

/-- Where the sign ends can be seen. -/
theorem digits_of_signed {sign sign' ds ds' : List Char} (hs : sign = [] ∨ sign = ['+'])
    (hs' : sign' = [] ∨ sign' = ['+']) (hd : ∀ c ∈ ds, c.isDigit = true)
    (he : ∀ c ∈ ds', c.isDigit = true) (h : sign ++ ds = sign' ++ ds') : ds = ds' := by
  have hplus : ('+').isDigit ≠ true := by decide
  rcases hs with rfl | rfl <;> rcases hs' with rfl | rfl
  · exact h
  · rw [List.nil_append] at h
    exact absurd (hd '+' (by simp [h])) hplus
  · rw [List.nil_append] at h
    exact absurd (he '+' (by simp [← h])) hplus
  · exact List.append_cancel_left h

namespace Misspelled

variable {cs : List Char}

theorem head (h : Misspelled cs) : ∀ c ∈ cs.head?, c.toNat < 0x41 := by
  cases h with
  | nothing => simp
  | negative cs => simp
  | @large sign digits hsign isDigit _ =>
    have hsmall : ∀ c ∈ digits, c.toNat < 0x41 := by
      intro c hc
      have hr := Decimal.isDigit_range (isDigit c hc)
      omega
    intro c hc
    rcases hsign with rfl | rfl
    · exact hsmall c (List.mem_of_mem_head? hc)
    · obtain rfl : '+' = c := Option.some.inj hc
      decide

theorem not_isNumeral (h : Misspelled cs) {sign digits : List Char}
    (hsign : sign = [] ∨ sign = ['+']) (hcs : cs = sign ++ digits) : ¬ IsNumeral digits := by
  intro hnumeral
  cases h with
  | nothing => exact hnumeral.nonempty (List.append_eq_nil_iff.mp hcs.symm).2
  | negative cs =>
    rcases hsign with rfl | rfl
    · rw [List.nil_append] at hcs
      exact absurd (hnumeral.isDigit '-' (by simp [← hcs])) (by decide)
    · exact absurd (List.cons.inj hcs).1 (by decide)
  | large hsign' isDigit hlarge =>
    have hfits := hnumeral.fits
    rw [← digits_of_signed hsign' hsign isDigit hnumeral.isDigit hcs] at hfits
    omega

theorem not_spells (h : Misspelled cs) (t : Threshold) : ¬ Spells cs t := by
  intro hspells
  generalize hds : cs = ds at hspells
  cases hspells with
  | name mem same => exact not_sameLetters_name mem h.head (hds ▸ same)
  | number hsign numeral => exact h.not_isNumeral hsign hds numeral

end Misspelled

/-! ## Writing -/

theorem ofDigitChars_chars (n : Nat) : Nat.ofDigitChars 10 (Decimal.chars n) 0 = n :=
  Decimal.valueFrom_chars n

theorem isNumeral_chars (n : UInt64) : IsNumeral (Decimal.chars n.toNat) := by
  refine ⟨Decimal.chars_ne_nil _, Decimal.isDigit_chars _, ?_⟩
  rw [ofDigitChars_chars]
  exact n.toNat_lt

/-- The text of a threshold is its first name, or else its number. -/
theorem text_cases (t : Threshold) :
    (∃ name, (name, t) ∈ names ∧ t.text = name) ∨
      t.text = String.ofList (Decimal.chars t.misses.toNat) := by
  unfold text
  split_ifs with halways hrepetitions hdisabled
  · exact .inl ⟨_, by simp [halways, names], rfl⟩
  · exact .inl ⟨_, by simp [hrepetitions, names], rfl⟩
  · exact .inl ⟨_, by simp [hdisabled, names], rfl⟩
  · exact .inr rfl

theorem trim_text (t : Threshold) : Unicode.trim t.text.toList = t.text.toList := by
  have hname : ∀ p ∈ names, Unicode.trim p.1.toList = p.1.toList := by decide +kernel
  have hdigit : ∀ n < 0x3a, 0x30 ≤ n → Unicode.whiteSpaceRanges.contains n = false := by decide
  rcases t.text_cases with ⟨name, hmem, htext⟩ | htext
  · rw [htext]
    exact hname (name, t) hmem
  · rw [htext, String.toList_ofList]
    refine Unicode.trim_eq_self fun c hc => ?_
    have hr := Decimal.isDigit_range (Decimal.isDigit_chars _ c hc)
    exact hdigit _ (by omega) hr.1

theorem ofText_text (t : Threshold) : ofText t.text = t := by
  refine ofText_of_spells ?_
  rw [trim_text]
  rcases t.text_cases with ⟨name, hmem, htext⟩ | htext
  · rw [htext]
    exact .name hmem rfl
  · have hspells := Spells.number (.inl rfl) (isNumeral_chars t.misses)
    rw [htext, String.toList_ofList]
    rwa [ofDigitChars_chars, Nat.toUInt64_eq, UInt64.ofNat_toNat] at hspells

/-! ## Main statement -/

/-- A threshold is read back from its text. White space around a text and the case of its letters do
not matter. A text asks for a threshold other than `always` exactly when, trimmed, it is a name of
it or its numeral, and `always` is what all others ask for. -/
theorem texts_of_thresholds :
    (∀ t : Threshold, ofText t.text = t) ∧
      (∀ s front back : String, Unicode.isBlank front.toList = true →
        Unicode.isBlank back.toList = true → ofText (front ++ s ++ back) = ofText s) ∧
      (∀ s s' : String, SameLetters s.toList s'.toList → ofText s = ofText s') ∧
      (∀ (s : String) (t : Threshold), t ≠ always →
        (ofText s = t ↔ Spells (Unicode.trim s.toList) t)) ∧
      (∀ s : String, ofText s = always ↔ ∀ t, Spells (Unicode.trim s.toList) t → t = always) ∧
      ∀ s : String, Misspelled (Unicode.trim s.toList) → ofText s = always := by
  refine ⟨ofText_text, ?_, ?_, ?_, ofText_eq_always_iff, ?_⟩
  · intro s front back hfront hback
    refine ofText_trimmed ?_
    rw [String.toList_append, String.toList_append, Unicode.trim_surrounded hfront hback]
    rfl
  · intro s s' h
    refine ofText_trimmed ?_
    rw [SameLetters, Unicode.map_toLower_trim, Unicode.map_toLower_trim, h]
  · intro s t ht
    exact ⟨fun h => spells_of_ofText h ht, ofText_of_spells⟩
  · intro s h
    exact (ofText_eq_always_iff s).mpr fun t ht => absurd ht (h.not_spells t)

/-- White space that is not ASCII, zeros in front, a negative number and the first number beyond the
largest one. -/
theorem texts_of_thresholds_spelled :
    Unicode.isBlank "\u3000 ".toList = true ∧ Unicode.isBlank "\n".toList = true ∧
      ofText ("\u3000 " ++ "+007" ++ "\n") = ofText "+007" ∧
      SameLetters "oFF".toList "Off".toList ∧ ofText "oFF" = ofText "Off" ∧
      (⟨7⟩ : Threshold) ≠ always ∧ Spells (Unicode.trim "+007".toList) ⟨7⟩ ∧ ofText "+007" = ⟨7⟩ ∧
      Misspelled (Unicode.trim " -3".toList) ∧ ofText " -3" = always ∧
      Misspelled (Unicode.trim "18446744073709551616".toList) ∧
      ofText "18446744073709551616" = always := by
  obtain ⟨-, hspace, hcase, hspelled, -, hmisspelled⟩ := texts_of_thresholds
  have hfront : Unicode.isBlank "\u3000 ".toList = true := by decide +kernel
  have hback : Unicode.isBlank "\n".toList = true := by decide +kernel
  have hletters : SameLetters "oFF".toList "Off".toList := by rw [SameLetters]; decide +kernel
  have hseven : (⟨7⟩ : Threshold) ≠ always := by decide
  have hnumeral : Spells (Unicode.trim "+007".toList) ⟨7⟩ := by
    have htrim : Unicode.trim "+007".toList = ['+'] ++ ['0', '0', '7'] := by decide +kernel
    rw [htrim]
    exact .number (.inr rfl) ⟨by decide, by simp, by decide⟩
  have hnegative : Misspelled (Unicode.trim " -3".toList) := by
    have htrim : Unicode.trim " -3".toList = ['-', '3'] := by decide +kernel
    exact htrim ▸ .negative ['3']
  have hlarge : Misspelled (Unicode.trim "18446744073709551616".toList) := by
    have htrim : Unicode.trim "18446744073709551616".toList =
        [] ++ "18446744073709551616".toList := by decide +kernel
    rw [htrim]
    exact .large (.inl rfl) (List.all_eq_true.mp (by decide +kernel)) (by decide +kernel)
  exact ⟨hfront, hback, hspace _ _ _ hfront hback, hletters, hcase _ _ hletters, hseven, hnumeral,
    (hspelled _ _ hseven).mpr hnumeral, hnegative, hmisspelled _ hnegative, hlarge,
    hmisspelled _ hlarge⟩

end PercentFormat.Threshold
