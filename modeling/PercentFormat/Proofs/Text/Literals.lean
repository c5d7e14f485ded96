import Mathlib.Data.List.Forall2
import Mathlib.Tactic.SplitIfs
import PercentFormat.Proofs.Text.Hex
import PercentFormat.Text.Literal

/-!
# Literals are told apart

A literal shows where it ends and which text it stands for, whatever characters stand for
themselves in it.
-/

namespace PercentFormat

/-- What stands in front of a sign is the same when it does not hold the sign itself. -/
theorem eq_of_append_cons {sep : Char} {xs ys r s : List Char} (hx : sep ∉ xs) (hy : sep ∉ ys)
    (h : xs ++ sep :: r = ys ++ sep :: s) : xs = ys ∧ r = s := by
  induction xs generalizing ys with
  | nil =>
    cases ys with
    | nil => exact ⟨rfl, (List.cons.inj h).2⟩
    | cons y ys =>
      exact absurd ((List.cons.inj h).1 ▸ List.mem_cons_self) hy
  | cons x xs ih =>
    cases ys with
    | nil => exact absurd ((List.cons.inj h).1 ▸ List.mem_cons_self) hx
    | cons y ys =>
      rw [List.mem_cons, not_or] at hx hy
      obtain ⟨hhead, htail⟩ := List.cons.inj h
      obtain ⟨hrest, hbehind⟩ := ih hx.2 hy.2 htail
      exact ⟨by rw [hhead, hrest], hbehind⟩

namespace Literal

/-- A way to write a character inside a literal, whatever may stand for itself. -/
def Writes (c : Char) (text : List Char) : Prop := ∃ plain, text = escapeChar plain c

/-- A way to write literals. Whether a character stands for itself may depend on where it is. -/
def Quotes (quote : List Char → List Char) : Prop :=
  ∀ cs, ∃ texts, List.Forall₂ Writes cs texts ∧ quote cs = '"' :: texts.flatten ++ ['"']

theorem forall₂_escapeChar (plain : Char → Bool) (cs : List Char) :
    List.Forall₂ Writes cs (cs.map (escapeChar plain)) := by
  induction cs with
  | nil => exact .nil
  | cons c cs ih => exact .cons ⟨plain, rfl⟩ ih

theorem quotes_quoteWith (plain : Char → Bool) : Quotes (quoteWith plain) := by
  intro cs
  refine ⟨cs.map (escapeChar plain), forall₂_escapeChar plain cs, ?_⟩
  rw [quoteWith, List.flatMap_def]

/-- The first character may be written in another way than the others. -/
def quoteFirst (first plain : Char → Bool) : List Char → List Char
  | [] => ['"', '"']
  | c :: cs => '"' :: (escapeChar first c ++ cs.flatMap (escapeChar plain)) ++ ['"']

theorem quotes_quoteFirst (first plain : Char → Bool) : Quotes (quoteFirst first plain) := by
  intro cs
  cases cs with
  | nil => exact ⟨[], .nil, rfl⟩
  | cons c cs =>
    refine ⟨escapeChar first c :: cs.map (escapeChar plain),
      .cons ⟨first, rfl⟩ (forall₂_escapeChar plain cs), ?_⟩
    rw [List.flatten_cons, ← List.flatMap_def]
    rfl

/-- The characters that have a short escape, and its letter. -/
def shortEscapes : List (Char × Char) :=
  [('"', '"'), ('\\', '\\'), ('\t', 't'), ('\r', 'r'), ('\n', 'n'), ('\x00', '0')]

/-- The three ways to write a character: a short escape, its number, itself. -/
inductive Written (c : Char) : List Char → Prop
  | short {letter : Char} (h : (c, letter) ∈ shortEscapes) : Written c ['\\', letter]
  | numbered : Written c ('\\' :: 'u' :: '\x7b' :: Hex.numeral c.toNat ++ ['\x7d'])
  | itself (quote : c ≠ '"') (slash : c ≠ '\\') (newline : c ≠ '\n') : Written c [c]

theorem Writes.written {c : Char} {text : List Char} (h : Writes c text) : Written c text := by
  obtain ⟨plain, rfl⟩ := h
  unfold escapeChar
  split_ifs with h₁ h₂ h₃ h₄ h₅ h₆ h₇
  · exact .short (by simp [h₁, shortEscapes])
  · exact .short (by simp [h₂, shortEscapes])
  · exact .short (by simp [h₃, shortEscapes])
  · exact .short (by simp [h₄, shortEscapes])
  · exact .short (by simp [h₅, shortEscapes])
  · exact .short (by simp [h₆, shortEscapes])
  · exact .itself h₁ h₂ h₅
  · exact .numbered

theorem Written.append_inj {c d : Char} {t u r s : List Char} (hc : Written c t)
    (hd : Written d u) (h : t ++ r = u ++ s) : c = d ∧ r = s := by
  have hshort : ∀ p ∈ shortEscapes, p.2 ≠ 'u' ∧ ∀ q ∈ shortEscapes, p.2 = q.2 → p.1 = q.1 := by
    decide
  cases hc with
  | short hmem =>
    cases hd with
    | short hmem' =>
      obtain ⟨hletter, hrest⟩ := List.cons.inj (List.cons.inj h).2
      exact ⟨(hshort _ hmem).2 _ hmem' hletter, hrest⟩
    | numbered =>
      exact absurd (List.cons.inj (List.cons.inj h).2).1 (hshort _ hmem).1
    | itself _ slash => exact absurd (List.cons.inj h).1.symm slash
  | numbered =>
    cases hd with
    | short hmem' =>
      exact absurd (List.cons.inj (List.cons.inj h).2).1.symm (hshort _ hmem').1
    | numbered =>
      have hbrace (n : Nat) : '\x7d' ∉ Hex.numeral n := by
        intro hmem
        exact absurd (Hex.value?_of_mem_numeral hmem) (by decide)
      simp only [List.cons_append, List.append_assoc, List.nil_append, List.cons.injEq,
        true_and] at h
      obtain ⟨hnumeral, hrest⟩ := eq_of_append_cons (hbrace _) (hbrace _) h
      exact ⟨Char.toNat_inj.mp (Hex.numeral_injective hnumeral), hrest⟩
    | itself _ slash => exact absurd (List.cons.inj h).1.symm slash
  | itself _ slash =>
    cases hd with
    | short => exact absurd (List.cons.inj h).1 slash
    | numbered => exact absurd (List.cons.inj h).1 slash
    | itself => exact List.cons.inj h

/-- A double quote inside a literal is never the first character of an escape. -/
theorem Written.head {c : Char} {t : List Char} (h : Written c t) :
    ∃ x xs, t = x :: xs ∧ x ≠ '"' := by
  cases h with
  | short => exact ⟨_, _, rfl, by decide⟩
  | numbered => exact ⟨_, _, rfl, by decide⟩
  | itself quote => exact ⟨_, _, rfl, quote⟩

theorem Written.newline_not_mem {c : Char} {t : List Char} (h : Written c t) : '\n' ∉ t := by
  have hshort : ∀ p ∈ shortEscapes, '\n' ≠ p.2 := by decide
  cases h with
  | short hmem =>
    simp only [List.mem_cons, List.not_mem_nil, or_false, not_or]
    exact ⟨by decide, hshort _ hmem⟩
  | numbered =>
    simp only [List.mem_cons, List.mem_append, List.cons_append, List.not_mem_nil, or_false, not_or]
    refine ⟨by decide, by decide, by decide, ?_, by decide⟩
    intro hmem
    exact absurd (Hex.value?_of_mem_numeral hmem) (by decide)
  | itself _ _ newline =>
    rw [List.mem_singleton]
    exact Ne.symm newline

theorem inside_append_inj {cs ds : List Char} {ts us : List (List Char)} {r s : List Char}
    (hc : List.Forall₂ Writes cs ts) (hd : List.Forall₂ Writes ds us)
    (h : ts.flatten ++ '"' :: r = us.flatten ++ '"' :: s) : cs = ds ∧ r = s := by
  induction hc generalizing ds us with
  | nil =>
    cases hd with
    | nil => exact ⟨rfl, (List.cons.inj h).2⟩
    | cons hd _ =>
      obtain ⟨x, xs, rfl, hx⟩ := hd.written.head
      exact absurd (List.cons.inj h).1.symm hx
  | cons hc _ ih =>
    cases hd with
    | nil =>
      obtain ⟨x, xs, rfl, hx⟩ := hc.written.head
      exact absurd (List.cons.inj h).1 hx
    | cons hd hds =>
      simp only [List.flatten_cons, List.append_assoc] at h
      obtain ⟨rfl, hrest⟩ := hc.written.append_inj hd.written h
      obtain ⟨rfl, hbehind⟩ := ih hds hrest
      exact ⟨rfl, hbehind⟩

namespace Quotes

variable {quote : List Char → List Char}

/-- A literal determines its text and where it ends. -/
theorem append_inj (hq : Quotes quote) {cs ds r s : List Char}
    (h : quote cs ++ r = quote ds ++ s) : cs = ds ∧ r = s := by
  obtain ⟨ts, hts, hcs⟩ := hq cs
  obtain ⟨us, hus, hds⟩ := hq ds
  rw [hcs, hds] at h
  simp only [List.cons_append, List.append_assoc, List.nil_append, List.cons.injEq, true_and] at h
  exact inside_append_inj hts hus h

theorem injective (hq : Quotes quote) : Function.Injective quote := by
  intro cs ds h
  exact (hq.append_inj (congrArg (· ++ []) h)).1

theorem newline_not_mem (hq : Quotes quote) (cs : List Char) : '\n' ∉ quote cs := by
  obtain ⟨ts, hts, hcs⟩ := hq cs
  have hinside : '\n' ∉ ts.flatten := by
    clear hcs
    induction hts with
    | nil => simp
    | cons hc _ ih =>
      rw [List.flatten_cons, List.mem_append, not_or]
      exact ⟨hc.written.newline_not_mem, ih⟩
  rw [hcs]
  simp [hinside]

theorem exists_cons (hq : Quotes quote) (cs : List Char) : ∃ rest, quote cs = '"' :: rest := by
  obtain ⟨ts, -, hcs⟩ := hq cs
  exact ⟨_, hcs⟩

end Quotes

end Literal

end PercentFormat
