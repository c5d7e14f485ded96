import PercentFormat.Proofs.Text.Decoding

/-!
# Segments of bytes

There is one way to split bytes into encoded characters and longest ill-formed runs, and decoding
takes that one. A split may be made wherever a character begins or ends.
-/

namespace PercentFormat.Utf8

/-! ## Splitting -/

/-- Bytes that begin the encoding of some character. -/
def Begins (bytes : List UInt8) : Prop := ∃ c, bytes <+: String.utf8EncodeChar c

/-- Bytes that no character accounts for, in front of others: the longest run that begins the
encoding of a character, or a single byte when none does. -/
structure IllFormed (bad rest : List UInt8) : Prop where
  nonempty : bad ≠ []
  unencoded : ∀ c, ¬ String.utf8EncodeChar c <+: bad ++ rest
  begins : Begins bad ∨ bad.length = 1
  longest : ∀ run, run <+: bad ++ rest → Begins run → run.length ≤ bad.length

inductive Split : List UInt8 → List Segment → Prop
  | nil : Split [] []
  | scalar (c : Char) {rest : List UInt8} {segs : List Segment} (split : Split rest segs) :
      Split (String.utf8EncodeChar c ++ rest) (.scalar c :: segs)
  | illFormed {bad rest : List UInt8} {segs : List Segment} (illFormed : IllFormed bad rest)
      (split : Split rest segs) : Split (bad ++ rest) (.illFormed bad :: segs)

namespace IllFormed

variable {bad bad' rest rest' : List UInt8}

theorem length_le (h : IllFormed bad rest) (h' : IllFormed bad' rest')
    (heq : bad ++ rest = bad' ++ rest') : bad.length ≤ bad'.length := by
  obtain hbegins | hone := h.begins
  · exact h'.longest bad (heq ▸ List.prefix_append bad rest) hbegins
  · rw [hone]
    exact List.length_pos_iff.mpr h'.nonempty

theorem unique (h : IllFormed bad rest) (h' : IllFormed bad' rest')
    (heq : bad ++ rest = bad' ++ rest') : bad = bad' ∧ rest = rest' :=
  List.append_inj heq (Nat.le_antisymm (h.length_le h' heq) (h'.length_le h heq.symm))

theorem length_le_three (h : IllFormed bad rest) : bad.length ≤ 3 := by
  obtain ⟨c, hc⟩ | hone := h.begins
  · have hne : bad.length ≠ (String.utf8EncodeChar c).length := by
      intro hlength
      exact h.unencoded c (hc.eq_of_length hlength ▸ List.prefix_append bad rest)
    have hle := hc.length_le
    have hfour := c.utf8Size_le_four
    rw [String.length_utf8EncodeChar] at hne hle
    omega
  · omega

end IllFormed

/-! ## Encodings -/

section

variable {k l m n : Nat}

theorem utf8EncodeChar_two (hlo : 2 ≤ k) (hhi : k < 32) (hm : m < 64) :
    String.utf8EncodeChar (Char.ofNat (64 * k + m)) =
      [UInt8.ofNat (k + 192), UInt8.ofNat (m + 128)] := by
  have hval : (Char.ofNat (64 * k + m)).val.toNat = 64 * k + m := toNat_charOfNat (by omega)
  have hlead : (64 * k + m) / 64 % 32 = k := by omega
  have hrest : (64 * k + m) % 64 = m := by omega
  simp only [String.utf8EncodeChar, hval, hlead, hrest]
  rw [if_neg (by omega), if_pos (by omega)]

theorem utf8EncodeChar_three (hk : k < 16) (hl : l < 64) (hm : m < 64) (hlong : k = 0 → 32 ≤ l)
    (hsurrogate : k = 13 → l < 32) :
    String.utf8EncodeChar (Char.ofNat (64 * (64 * k + l) + m)) =
      [UInt8.ofNat (k + 224), UInt8.ofNat (l + 128), UInt8.ofNat (m + 128)] := by
  have hval : (Char.ofNat (64 * (64 * k + l) + m)).val.toNat = 64 * (64 * k + l) + m :=
    toNat_charOfNat (by omega)
  have hlead : (64 * (64 * k + l) + m) / 4096 % 16 = k := by omega
  have hnext : (64 * (64 * k + l) + m) / 64 % 64 = l := by omega
  have hrest : (64 * (64 * k + l) + m) % 64 = m := by omega
  simp only [String.utf8EncodeChar, hval, hlead, hnext, hrest]
  rw [if_neg (by omega), if_neg (by omega), if_pos (by omega)]

theorem utf8EncodeChar_four (hk : k ≤ 4) (hl : l < 64) (hm : m < 64) (hn : n < 64)
    (hlong : k = 0 → 16 ≤ l) (hlarge : k = 4 → l < 16) :
    String.utf8EncodeChar (Char.ofNat (64 * (64 * (64 * k + l) + m) + n)) =
      [UInt8.ofNat (k + 240), UInt8.ofNat (l + 128), UInt8.ofNat (m + 128),
        UInt8.ofNat (n + 128)] := by
  have hval : (Char.ofNat (64 * (64 * (64 * k + l) + m) + n)).val.toNat =
      64 * (64 * (64 * k + l) + m) + n := toNat_charOfNat (by omega)
  have hlead : (64 * (64 * (64 * k + l) + m) + n) / 262144 % 8 = k := by omega
  have hnext : (64 * (64 * (64 * k + l) + m) + n) / 4096 % 64 = l := by omega
  have hthird : (64 * (64 * (64 * k + l) + m) + n) / 64 % 64 = m := by omega
  have hrest : (64 * (64 * (64 * k + l) + m) + n) % 64 = n := by omega
  simp only [String.utf8EncodeChar, hval, hlead, hnext, hthird, hrest]
  rw [if_neg (by omega), if_neg (by omega), if_neg (by omega)]

end

/-! ## Lead bytes -/

/-- A byte that may stand behind a lead byte. -/
def Continues (b : UInt8) : Prop := 0x80 ≤ b ∧ b ≤ 0xbf

theorem Continues.exists_six {b : UInt8} (h : Continues b) :
    ∃ m < 64, b = UInt8.ofNat (m + 128) ∧ b.toNat = m + 128 := by
  obtain ⟨hlo, hhi⟩ := h
  rw [UInt8.le_iff_toNat_le] at hlo hhi
  have hlo' : 128 ≤ b.toNat := hlo
  have hhi' : b.toNat ≤ 191 := hhi
  refine ⟨b.toNat - 128, by omega, ?_, by omega⟩
  rw [Nat.sub_add_cancel hlo', UInt8.ofNat_toNat]

namespace Lead

/-- The range of the next byte is not empty and has only bytes that may follow. -/
structure Proper (l : Lead) : Prop where
  lo : 0x80 ≤ l.lo
  ordered : l.lo ≤ l.hi
  hi : l.hi ≤ 0xbf

theorem proper_mk {lo hi : UInt8} (bits more : Nat) (hlo : 0x80 ≤ lo) (hordered : lo ≤ hi)
    (hhi : hi ≤ 0xbf) : Proper ⟨bits, more, lo, hi⟩ :=
  ⟨hlo, hordered, hhi⟩

/-- Any byte that may follow is in range. -/
theorem proper_any (bits more : Nat) : Proper ⟨bits, more, 0x80, 0xbf⟩ :=
  proper_mk bits more (by decide) (by decide) (by decide)

/-- Lead bytes by the length of what they begin. -/
inductive Leads : UInt8 → Lead → Prop
  | two {k : Nat} (least : 2 ≤ k) (most : k < 32) :
      Leads (UInt8.ofNat (k + 192)) ⟨k, 1, 0x80, 0xbf⟩
  | three {k : Nat} {lo hi : UInt8} (most : k < 16) (long : k = 0 → lo = 0xa0)
      (surrogate : k = 13 → hi = 0x9f) : Leads (UInt8.ofNat (k + 224)) ⟨k, 2, lo, hi⟩
  | four {k : Nat} {lo hi : UInt8} (most : k ≤ 4) (long : k = 0 → lo = 0x90)
      (large : k = 4 → hi = 0x8f) : Leads (UInt8.ofNat (k + 240)) ⟨k, 3, lo, hi⟩

theorem of_lead? {b : UInt8} {l : Lead} (h : lead? b = some l) : l.Proper ∧ Leads b l := by
  have hlt : b.toNat < 256 := b.toNat_lt
  rw [← UInt8.ofNat_toNat (x := b)] at h ⊢
  generalize b.toNat = n at hlt h ⊢
  rw [lead?_ofNat hlt] at h
  split at h
  · exact nomatch h
  split at h
  · obtain rfl := Option.some.inj h
    obtain ⟨k, rfl⟩ := Nat.exists_eq_add_of_le' (show 192 ≤ n by omega)
    rw [Nat.add_sub_cancel]
    exact ⟨proper_any k 1, .two (by omega) (by omega)⟩
  split at h
  · next hzero =>
    obtain rfl := Option.some.inj h
    subst hzero
    exact ⟨proper_mk 0 2 (by decide) (by decide) (by decide),
      .three (k := 0) (by omega) (fun _ => rfl) (by omega)⟩
  split at h
  · next hthirteen =>
    obtain rfl := Option.some.inj h
    subst hthirteen
    exact ⟨proper_mk 13 2 (by decide) (by decide) (by decide),
      .three (k := 13) (by omega) (by omega) (fun _ => rfl)⟩
  split at h
  · obtain rfl := Option.some.inj h
    obtain ⟨k, rfl⟩ := Nat.exists_eq_add_of_le' (show 224 ≤ n by omega)
    rw [Nat.add_sub_cancel]
    exact ⟨proper_any k 2, .three (by omega) (by omega) (by omega)⟩
  split at h
  · next hzero =>
    obtain rfl := Option.some.inj h
    subst hzero
    exact ⟨proper_mk 0 3 (by decide) (by decide) (by decide),
      .four (k := 0) (by omega) (fun _ => rfl) (by omega)⟩
  split at h
  · obtain rfl := Option.some.inj h
    obtain ⟨k, rfl⟩ := Nat.exists_eq_add_of_le' (show 240 ≤ n by omega)
    rw [Nat.add_sub_cancel]
    exact ⟨proper_any k 3, .four (by omega) (by omega) (by omega)⟩
  split at h
  · next hfour =>
    obtain rfl := Option.some.inj h
    subst hfour
    exact ⟨proper_mk 4 3 (by decide) (by decide) (by decide),
      .four (k := 4) (by omega) (by omega) (fun _ => rfl)⟩
  · exact nomatch h

/-- What is promised once one more byte was read. -/
def next (l : Lead) (b : UInt8) : Lead := ⟨64 * l.bits + b.toNat % 64, l.more - 1, 0x80, 0xbf⟩

/-- Bytes that are read one after the other because each is promised and in range. -/
inductive Takes : Lead → List UInt8 → Lead → Prop
  | nil (l : Lead) : Takes l [] l
  | cons {l m : Lead} {b : UInt8} {bs : List UInt8} (more : 0 < l.more)
      (range : l.lo ≤ b ∧ b ≤ l.hi) (rest : Takes (l.next b) bs m) : Takes l (b :: bs) m

/-- Reads on behind the bytes of `seen`. -/
def read (l : Lead) (seen bs : List UInt8) : Segment × List UInt8 :=
  follow l.more l.lo l.hi l.bits seen bs

variable {l m : Lead} {b : UInt8} {bs cs seen : List UInt8}

theorem proper_next (l : Lead) (b : UInt8) : (l.next b).Proper :=
  proper_any _ _

theorem Proper.continues (h : l.Proper) (hb : l.lo ≤ b ∧ b ≤ l.hi) : Continues b :=
  ⟨UInt8.le_trans h.lo hb.1, UInt8.le_trans hb.2 h.hi⟩

/-! ### Reading on -/

theorem read_stuck (h : 0 < l.more) (hb : ∀ b ∈ bs.head?, ¬ (l.lo ≤ b ∧ b ≤ l.hi)) :
    l.read seen bs = (.illFormed seen.reverse, bs) := by
  obtain ⟨bits, _ | n, lo, hi⟩ := l
  · exact absurd h (Nat.lt_irrefl 0)
  cases bs with
  | nil => simp [read, follow]
  | cons b bs =>
    have hout : ¬ (lo ≤ b ∧ b ≤ hi) := hb b rfl
    rw [read, follow, if_neg hout]

theorem read_cons (h : 0 < l.more) (hb : l.lo ≤ b ∧ b ≤ l.hi) :
    l.read seen (b :: bs) = (l.next b).read (b :: seen) bs := by
  obtain ⟨bits, _ | n, lo, hi⟩ := l
  · exact absurd h (Nat.lt_irrefl 0)
  rw [read, follow, if_pos hb]
  rfl

namespace Takes

theorem read (h : Takes l bs m) (seen cs : List UInt8) :
    l.read seen (bs ++ cs) = m.read (bs.reverse ++ seen) cs := by
  induction h generalizing seen with
  | nil l => rfl
  | cons more range _ ih =>
    rw [List.cons_append, read_cons more range, ih, List.reverse_cons, List.append_assoc]
    rfl

theorem append {k : Lead} (h : Takes l bs m) (h' : Takes m cs k) : Takes l (bs ++ cs) k := by
  induction h with
  | nil l => exact h'
  | cons more range _ ih => exact .cons more range (ih h')

theorem proper (h : Takes l bs m) (hl : l.Proper) : m.Proper := by
  induction h with
  | nil l => exact hl
  | cons _ _ _ ih => exact ih (proper_next _ _)

/-- Nothing is read when nothing is promised. -/
theorem done (h : Takes l bs m) (hl : l.more = 0) : bs = [] ∧ m = l := by
  cases h with
  | nil => exact ⟨rfl, rfl⟩
  | cons more => omega

/-- The first of the promised bytes, with its six bits. -/
theorem exists_six {n : Nat} (h : Takes l bs m) (hl : l.Proper) (hmore : l.more = n + 1)
    (hm : m.more = 0) :
    ∃ x < 64, ∃ cs, bs = UInt8.ofNat (x + 128) :: cs ∧
      (l.lo.toNat ≤ x + 128 ∧ x + 128 ≤ l.hi.toNat) ∧
        Takes ⟨64 * l.bits + x, n, 0x80, 0xbf⟩ cs m := by
  cases h with
  | nil => omega
  | @cons _ _ b cs more range rest =>
    obtain ⟨x, hx, hb, hval⟩ := (hl.continues range).exists_six
    have hbits : b.toNat % 64 = x := by omega
    rw [next, hbits, hmore, Nat.add_sub_cancel] at rest
    rw [UInt8.le_iff_toNat_le, UInt8.le_iff_toNat_le, hval] at range
    exact ⟨x, hx, cs, by rw [← hb], range, rest⟩

end Takes

/-- Reading goes on up to the last promised byte, or to where it is stuck. -/
theorem exists_takes (l : Lead) (bs : List UInt8) :
    ∃ tail rest m, bs = tail ++ rest ∧ Takes l tail m ∧
      (m.more = 0 ∨ 0 < m.more ∧ ∀ b ∈ rest.head?, ¬ (m.lo ≤ b ∧ b ≤ m.hi)) := by
  induction bs generalizing l with
  | nil =>
    refine ⟨[], [], l, rfl, .nil l, ?_⟩
    obtain hzero | hpos := Nat.eq_zero_or_pos l.more
    · exact .inl hzero
    · exact .inr ⟨hpos, fun b hb => nomatch hb⟩
  | cons b bs ih =>
    obtain hzero | hpos := Nat.eq_zero_or_pos l.more
    · exact ⟨[], b :: bs, l, rfl, .nil l, .inl hzero⟩
    by_cases hb : l.lo ≤ b ∧ b ≤ l.hi
    · obtain ⟨tail, rest, m, rfl, htakes, hend⟩ := ih (l.next b)
      exact ⟨b :: tail, rest, m, rfl, .cons hpos hb htakes, hend⟩
    · refine ⟨[], b :: bs, l, rfl, .nil l, .inr ⟨hpos, ?_⟩⟩
      intro c hc
      obtain rfl := Option.some.inj hc
      exact hb

/-- What is promised can be had. -/
theorem exists_completion (hl : l.Proper) : ∃ bs m, Takes l bs m ∧ m.more = 0 := by
  generalize hn : l.more = n
  induction n generalizing l with
  | zero => exact ⟨[], l, .nil l, hn⟩
  | succ n ih =>
    have hnext : (l.next l.lo).more = n := by
      simp only [next, hn, Nat.add_sub_cancel]
    obtain ⟨bs, m, htakes, hm⟩ := ih (proper_next l l.lo) hnext
    exact ⟨l.lo :: bs, m, .cons (by omega) ⟨UInt8.le_refl _, hl.ordered⟩ htakes, hm⟩

/-- All that a lead byte promises is the encoding of a character. -/
theorem encoded (hlead : Leads b l) (hl : l.Proper) (h : Takes l bs m) (hm : m.more = 0) :
    String.utf8EncodeChar (Char.ofNat m.bits) = b :: bs := by
  cases hlead with
  | @two k least most =>
    obtain ⟨x, hx, _, rfl, -, h⟩ := h.exists_six hl rfl hm
    obtain ⟨rfl, rfl⟩ := h.done rfl
    exact utf8EncodeChar_two least most hx
  | @three k lo hi most long surrogate =>
    obtain ⟨x, hx, _, rfl, ⟨hlo, hhi⟩, h⟩ := h.exists_six hl rfl hm
    obtain ⟨y, hy, _, rfl, -, h⟩ := h.exists_six (proper_any _ _) rfl hm
    obtain ⟨rfl, rfl⟩ := h.done rfl
    refine utf8EncodeChar_three most hx hy ?_ ?_
    · intro hk
      rw [long hk] at hlo
      exact Nat.le_of_add_le_add_right (b := 128) hlo
    · intro hk
      rw [surrogate hk] at hhi
      exact Nat.lt_succ_of_le (Nat.le_of_add_le_add_right (b := 128) hhi)
  | @four k lo hi most long large =>
    obtain ⟨x, hx, _, rfl, ⟨hlo, hhi⟩, h⟩ := h.exists_six hl rfl hm
    obtain ⟨y, hy, _, rfl, -, h⟩ := h.exists_six (proper_any _ _) rfl hm
    obtain ⟨z, hz, _, rfl, -, h⟩ := h.exists_six (proper_any _ _) rfl hm
    obtain ⟨rfl, rfl⟩ := h.done rfl
    refine utf8EncodeChar_four most hx hy hz ?_ ?_
    · intro hk
      rw [long hk] at hlo
      exact Nat.le_of_add_le_add_right (b := 128) hlo
    · intro hk
      rw [large hk] at hhi
      exact Nat.lt_succ_of_le (Nat.le_of_add_le_add_right (b := 128) hhi)

end Lead

/-! ## First segments -/

section

variable {b : UInt8} {rest : List UInt8}

theorem first_of_lead {l : Lead} (hb : ¬ b < 0x80) (h : lead? b = some l) :
    first b rest = l.read [b] rest := by
  rw [first, if_neg hb, h]
  rfl

/-- The bytes of a character, or those in front of a byte that they rule out: then what stands
behind that byte does not matter. -/
theorem first_cases (b : UInt8) (rest : List UInt8) :
    (∃ c tail rest', String.utf8EncodeChar c = b :: tail ∧ rest = tail ++ rest') ∨
      ∃ tail rest', rest = tail ++ rest' ∧ (tail = [] ∨ Begins (b :: tail)) ∧
        ∀ bytes, bytes.head? = rest'.head? ∨ (∀ c ∈ bytes.head?, ¬ Continues c) →
          first b (tail ++ bytes) = (.illFormed (b :: tail), bytes) := by
  by_cases hb : b < 0x80
  · exact .inl ⟨Char.ofNat b.toNat, [], rest, utf8EncodeChar_byte hb, rfl⟩
  cases hl : lead? b with
  | none =>
    refine .inr ⟨[], rest, rfl, .inl rfl, fun bytes _ => ?_⟩
    rw [first, if_neg hb, hl]
    rfl
  | some l =>
    obtain ⟨hproper, hlead⟩ := Lead.of_lead? hl
    obtain ⟨tail, rest', m, rfl, htakes, hdone | ⟨hmore, hstuck⟩⟩ := l.exists_takes rest
    · exact .inl ⟨_, tail, rest', Lead.encoded hlead hproper htakes hdone, rfl⟩
    refine .inr ⟨tail, rest', rfl, .inr ?_, ?_⟩
    · obtain ⟨more, n, hmoretakes, hn⟩ := Lead.exists_completion (htakes.proper hproper)
      have hencoded := Lead.encoded hlead hproper (htakes.append hmoretakes) hn
      refine ⟨Char.ofNat n.bits, ?_⟩
      rw [hencoded]
      exact List.prefix_append (b :: tail) more
    · intro bytes hbytes
      have hbytes' : ∀ c ∈ bytes.head?, ¬ (m.lo ≤ c ∧ c ≤ m.hi) := by
        obtain hsame | hout := hbytes
        · rwa [hsame]
        · exact fun c hc hrange => hout c hc ((htakes.proper hproper).continues hrange)
      rw [first_of_lead hb hl, htakes.read, Lead.read_stuck hmore hbytes']
      simp

/-- What is read as ill-formed is so. -/
theorem illFormed_of_first {tail rest' : List UInt8} (hbegins : tail = [] ∨ Begins (b :: tail))
    (hfirst : ∀ bytes, bytes.head? = rest'.head? ∨ (∀ c ∈ bytes.head?, ¬ Continues c) →
      first b (tail ++ bytes) = (.illFormed (b :: tail), bytes)) : IllFormed (b :: tail) rest' := by
  have hread : ∀ c bytes, bytes.head? = rest'.head? →
      ¬ String.utf8EncodeChar c <+: b :: (tail ++ bytes) := by
    rintro c bytes hbytes ⟨after, hafter⟩
    cases henc : String.utf8EncodeChar c with
    | nil => exact String.utf8EncodeChar_ne_nil henc
    | cons d ds =>
      rw [henc, List.cons_append, List.cons.injEq] at hafter
      obtain ⟨rfl, hds⟩ := hafter
      have h := hfirst bytes (.inl hbytes)
      rw [← hds, first_utf8EncodeChar henc] at h
      cases h
  refine ⟨List.cons_ne_nil b tail, fun c => hread c rest' rfl, ?_, ?_⟩
  · obtain rfl | h := hbegins
    · exact .inr rfl
    · exact .inl h
  · -- A longer run would go on with the next byte, which is ruled out.
    rintro run hrun ⟨c, hc⟩
    refine Nat.le_of_not_lt fun hlonger => ?_
    obtain ⟨more, rfl⟩ := List.prefix_of_prefix_length_le
      (List.prefix_append (b :: tail) rest') hrun (Nat.le_of_lt hlonger)
    obtain ⟨after, hafter⟩ := hc
    have hmore := (List.prefix_append_right_inj (b :: tail)).mp hrun
    cases more with
    | nil => simp at hlonger
    | cons d ds =>
      obtain ⟨rest'', rfl⟩ := hmore
      refine hread c (d :: ds ++ after) rfl ?_
      rw [← hafter, List.append_assoc]
      exact List.prefix_rfl

theorem not_continues_of_encoded {c : Char} {bs : List UInt8}
    (h : String.utf8EncodeChar c = b :: bs) : ¬ Continues b := by
  rintro ⟨hlo, hhi⟩
  have hascii : ¬ b < 0x80 := UInt8.not_lt.mpr hlo
  have hlead : lead? b = none := by
    rw [UInt8.le_iff_toNat_le] at hhi
    rw [lead?, if_pos (UInt8.lt_iff_toNat_lt.mpr (Nat.lt_of_le_of_lt hhi (by decide)))]
  have hread := first_utf8EncodeChar h []
  rw [first, if_neg hascii, hlead] at hread
  cases hread

end

/-! ## Segments -/

theorem split_segments (bytes : List UInt8) : Split bytes (segments bytes) := by
  induction bytes using segments.induct with
  | case1 =>
    rw [segments]
    exact .nil
  | case2 b rest ih =>
    rw [segments_cons]
    obtain ⟨c, tail, rest', hc, rfl⟩ | ⟨tail, rest', rfl, hbegins, hfirst⟩ := first_cases b rest
    · rw [first_utf8EncodeChar hc] at ih ⊢
      rw [← List.cons_append, ← hc]
      exact .scalar c ih
    · rw [hfirst rest' (.inl rfl)] at ih ⊢
      exact .illFormed (illFormed_of_first hbegins hfirst) ih

-- A surrogate is three runs of a byte each: its first byte rules out the second one.
example : segments [0xed, 0xa0, 0x80, 0xf0, 0x9f] =
    [.illFormed [0xed], .illFormed [0xa0], .illFormed [0x80], .illFormed [0xf0, 0x9f]] := by
  decide +kernel

/-- A split is what decoding takes, so there is no other. -/
theorem Split.eq_segments {bytes : List UInt8} {segs : List Segment} (h : Split bytes segs) :
    segs = segments bytes := by
  induction h with
  | nil => rw [segments]
  | @scalar c rest segs _ ih =>
    have hsegments := segments_flatMap_append [c] rest
    rw [List.flatMap_singleton] at hsegments
    rw [hsegments, ih]
    rfl
  | @illFormed bad rest segs hbad _ ih =>
    cases bad with
    | nil => exact absurd rfl hbad.nonempty
    | cons b tail =>
      rw [List.cons_append, segments_cons]
      obtain ⟨c, tail', rest', hc, heq⟩ | ⟨tail', rest', heq, hbegins, hfirst⟩ :=
        first_cases b (tail ++ rest)
      · refine absurd ?_ (hbad.unencoded c)
        rw [hc, List.cons_append, heq]
        exact List.prefix_append (b :: tail') rest'
      · obtain ⟨htail, rfl⟩ := hbad.unique (illFormed_of_first hbegins hfirst)
          (congrArg (List.cons b) heq)
        obtain rfl := (List.cons.inj htail).2
        rw [hfirst rest (.inl rfl), ih]

theorem Split.length_illFormed {bytes bad : List UInt8} {segs : List Segment}
    (h : Split bytes segs) (hbad : .illFormed bad ∈ segs) : 1 ≤ bad.length ∧ bad.length ≤ 3 := by
  induction h with
  | nil => exact nomatch hbad
  | scalar c _ ih =>
    obtain hhead | htail := List.mem_cons.mp hbad
    · exact nomatch hhead
    · exact ih htail
  | illFormed hill _ ih =>
    obtain hhead | htail := List.mem_cons.mp hbad
    · obtain rfl := Segment.illFormed.inj hhead
      exact ⟨List.length_pos_iff.mpr hill.nonempty, hill.length_le_three⟩
    · exact ih htail

/-- Bytes can be taken apart in front of a byte that continues nothing. -/
theorem segments_append (bytes : List UInt8) {more : List UInt8}
    (h : ∀ b ∈ more.head?, ¬ Continues b) :
    segments (bytes ++ more) = segments bytes ++ segments more := by
  induction bytes using segments.induct with
  | case1 => rw [segments, List.nil_append, List.nil_append]
  | case2 b rest ih =>
    rw [List.cons_append, segments_cons, segments_cons]
    obtain ⟨c, tail, rest', hc, rfl⟩ | ⟨tail, rest', rfl, -, hfirst⟩ := first_cases b rest
    · rw [first_utf8EncodeChar hc] at ih ⊢
      rw [List.append_assoc, first_utf8EncodeChar hc, ih]
      rfl
    · have hhead : (rest' ++ more).head? = rest'.head? ∨
          ∀ c ∈ (rest' ++ more).head?, ¬ Continues c := by
        cases rest' with
        | nil => exact .inr h
        | cons d rest' => exact .inl rfl
      rw [hfirst rest' (.inl rfl)] at ih ⊢
      rw [List.append_assoc, hfirst (rest' ++ more) hhead, ih]
      rfl

/-! ## Texts -/

theorem exists_toUTF8 {bytes : ByteArray} (h : bytes.IsValidUTF8) :
    ∃ s : String, bytes = s.toUTF8 := by
  obtain ⟨cs, rfl⟩ := h
  exact ⟨String.ofList cs, String.toByteArray_ofList.symm⟩

theorem not_continues_toUTF8 (s : String) :
    ∀ b ∈ s.toUTF8.data.toList.head?, ¬ Continues b := by
  rw [data_toUTF8]
  intro b hb
  cases hs : s.toList with
  | nil => simp [hs] at hb
  | cons c cs =>
    cases hc : String.utf8EncodeChar c with
    | nil => exact absurd hc String.utf8EncodeChar_ne_nil
    | cons d ds =>
      rw [hs, List.flatMap_cons, hc] at hb
      obtain rfl := Option.some.inj hb
      exact not_continues_of_encoded hc

/-- Decoding goes portion by portion, as long as one of two portions is text by itself. -/
theorem decodeLossy_append {bytes more : ByteArray}
    (h : bytes.IsValidUTF8 ∨ more.IsValidUTF8) :
    decodeLossy (bytes ++ more) = decodeLossy bytes ++ decodeLossy more := by
  have hdata : (bytes ++ more).data.toList = bytes.data.toList ++ more.data.toList := by
    simp
  have hsegments : segments (bytes.data.toList ++ more.data.toList) =
      segments bytes.data.toList ++ segments more.data.toList := by
    obtain hvalid | hvalid := h
    · obtain ⟨s, rfl⟩ := exists_toUTF8 hvalid
      rw [segments_toUTF8_append, segments_toUTF8]
    · obtain ⟨s, rfl⟩ := exists_toUTF8 hvalid
      exact segments_append _ (not_continues_toUTF8 s)
  rw [decodeLossy, hdata, hsegments, List.map_append, String.ofList_append]
  rfl

end PercentFormat.Utf8
