import PercentFormat.Proofs.Json.RoundTrip

/-!
# Texts of JSON are told apart

A text determines the value that it was written for and where it ends, however large the numbers
and however deep the value. Reading the text could not show that: it keeps to 64 bits and to a
depth.
-/

namespace PercentFormat.Json

/-! ## Parts of a text -/

theorem writeString_append_inj {s t : String} {r u : List Char}
    (h : writeString s ++ r = writeString t ++ u) : s = t ∧ r = u := by
  simp only [writeString, List.cons_append, List.append_assoc, List.nil_append, List.cons.injEq,
    true_and] at h
  have hbody := congrArg Reader.stringBody h
  rw [Reader.stringBody_escaped, Reader.stringBody_escaped] at hbody
  obtain ⟨hchars, hrest⟩ := Prod.mk.inj (Option.some.inj hbody)
  exact ⟨String.toList_injective (Option.some.inj hchars), hrest⟩

theorem Numeral.ofInteger_injective : Function.Injective Numeral.ofInteger := by
  intro m n h
  obtain ⟨hsign, hdigits, -, -⟩ := Numeral.mk.inj h
  have habs : m.natAbs = n.natAbs := by
    rw [← Decimal.valueFrom_chars m.natAbs, hdigits, Decimal.valueFrom_chars]
  have hneg := decide_eq_decide.mp hsign
  omega

theorem writeInteger_append_inj {m n : Int} {r u : List Char} (hr : Reader.Apart r)
    (hu : Reader.Apart u) (h : writeInteger m ++ r = writeInteger n ++ u) : m = n ∧ r = u := by
  have hnumeral := congrArg Reader.numeral? h
  rw [Reader.numeral?_writeInteger hr, Reader.numeral?_writeInteger hu] at hnumeral
  obtain ⟨hinteger, hrest⟩ := Prod.mk.inj (Option.some.inj hnumeral)
  exact ⟨Numeral.ofInteger_injective hinteger, hrest⟩

variable {l : Layout} {i : Nat} {j k : Json} {r s : List Char}

theorem Exact.alike (hj : Exact j) (hk : Exact k) (h : write l i j ++ r = write l i k ++ s) :
    Alike j k := by
  obtain ⟨c, cs, hc, hopening⟩ := hj.write_eq_cons (l := l) (i := i)
  obtain ⟨d, ds, hd, hopening'⟩ := hk.write_eq_cons (l := l) (i := i)
  rw [hc, hd] at h
  obtain ⟨rfl, -⟩ := List.cons.inj h
  exact alike_of_opening (hopening.symm.trans hopening')

/-! ## Values -/

/-- The text of a value, whatever follows it, is the text of no other. -/
def Tells (l : Layout) (j : Json) : Prop :=
  ∀ {k : Json} {i : Nat} {r s : List Char}, Exact k → Reader.Apart r → Reader.Apart s →
    write l i j ++ r = write l i k ++ s → j = k ∧ r = s

theorem close_ne_gap (hl : l.Blank) (hj : Exact j) : ']' :: r ≠ l.gap i ++ (write l i j ++ s) := by
  obtain ⟨c, cs, hc, hopening⟩ := hj.write_eq_cons (l := l) (i := i)
  obtain ⟨hblank, hne⟩ := opening_visible hopening
  intro h
  have hskip := congrArg Reader.skipBlank h
  rw [hc, List.cons_append, Reader.skipBlank_append (hl.gap i) hblank] at hskip
  exact hne (List.cons.inj hskip).1.symm

theorem close_ne_gap_name (hl : l.Blank) (name : String) :
    '\x7d' :: r ≠ l.gap i ++ (writeString name ++ s) := by
  obtain ⟨cs, hskip, -⟩ := Reader.skipBlank_writeString (hl.gap i) name s
  intro h
  rw [← h] at hskip
  exact absurd (List.cons.inj hskip).1 (by decide)

/-- A closing sign behind white space is no comma. -/
theorem gap_ne_comma (hl : l.Blank) {c : Char} (hc : Reader.isBlank c = false) (hne : c ≠ ',') :
    l.gap i ++ c :: r ≠ ',' :: s := by
  intro h
  have hskip := congrArg Reader.skipBlank h
  rw [Reader.skipBlank_append (hl.gap i) hc] at hskip
  exact hne (List.cons.inj hskip).1

theorem items_append_inj (hl : l.Blank) {d : Nat} {js ks : List Json}
    (hj : ∀ j ∈ js, Tells l j) (hk : ∀ k ∈ ks, Exact k)
    (h : writeItems l i js ++ (l.gap d ++ ']' :: r) =
      writeItems l i ks ++ (l.gap d ++ ']' :: s)) : js = ks ∧ r = s := by
  induction js generalizing ks with
  | nil =>
    cases ks with
    | nil => exact ⟨rfl, (List.cons.inj (List.append_cancel_left h)).2⟩
    | cons y ys =>
      rw [writeItems, writeItems] at h
      exact absurd h (gap_ne_comma hl (by decide) (by decide))
  | cons x xs ih =>
    cases ks with
    | nil =>
      rw [writeItems, writeItems] at h
      exact absurd h.symm (gap_ne_comma hl (by decide) (by decide))
    | cons y ys =>
      rw [List.forall_mem_cons] at hj hk
      simp only [writeItems, List.cons_append, List.append_assoc, List.cons.injEq, true_and] at h
      obtain ⟨rfl, hrest⟩ := hj.1 hk.1 (Reader.apart_items hl xs r d)
        (Reader.apart_items hl ys s d) (List.append_cancel_left h)
      obtain ⟨rfl, hbehind⟩ := ih hj.2 hk.2 hrest
      exact ⟨rfl, hbehind⟩

theorem members_append_inj (hl : l.Blank) {d : Nat} {ms ns : List (String × Json)}
    (hm : ∀ m ∈ ms, Tells l m.2) (hn : ∀ n ∈ ns, Exact n.2)
    (h : writeMembers l i ms ++ (l.gap d ++ '\x7d' :: r) =
      writeMembers l i ns ++ (l.gap d ++ '\x7d' :: s)) : ms = ns ∧ r = s := by
  induction ms generalizing ns with
  | nil =>
    cases ns with
    | nil => exact ⟨rfl, (List.cons.inj (List.append_cancel_left h)).2⟩
    | cons y ys =>
      rw [writeMembers, writeMembers] at h
      exact absurd h (gap_ne_comma hl (by decide) (by decide))
  | cons x xs ih =>
    cases ns with
    | nil =>
      rw [writeMembers, writeMembers] at h
      exact absurd h.symm (gap_ne_comma hl (by decide) (by decide))
    | cons y ys =>
      obtain ⟨name, x⟩ := x
      obtain ⟨name', y⟩ := y
      rw [List.forall_mem_cons] at hm hn
      simp only [writeMembers, List.cons_append, List.append_assoc, List.cons.injEq, true_and] at h
      obtain ⟨rfl, hvalue⟩ := writeString_append_inj (List.append_cancel_left h)
      obtain ⟨rfl, hrest⟩ := hm.1 hn.1 (Reader.apart_members hl xs r d)
        (Reader.apart_members hl ys s d) (List.append_cancel_left (List.cons.inj hvalue).2)
      obtain ⟨rfl, hbehind⟩ := ih hm.2 hn.2 hrest
      exact ⟨rfl, hbehind⟩

theorem tells_array (hl : l.Blank) {js : List Json} (hexact : ∀ j ∈ js, Exact j)
    (hj : ∀ j ∈ js, Tells l j) : Tells l (.array js) := by
  intro k i r s hk _ _ h
  cases (Exact.array hexact).alike hk h with
  | array _ ks =>
    cases hk with
    | array hk =>
      cases js with
      | nil =>
        cases ks with
        | nil => exact ⟨rfl, List.append_cancel_left h⟩
        | cons y ys =>
          simp only [write, List.cons_append, List.append_assoc, List.nil_append, List.cons.injEq,
            true_and] at h
          exact absurd h (close_ne_gap hl (hk y List.mem_cons_self))
      | cons x xs =>
        cases ks with
        | nil =>
          simp only [write, List.cons_append, List.append_assoc, List.nil_append, List.cons.injEq,
            true_and] at h
          exact absurd h.symm (close_ne_gap hl (hexact x List.mem_cons_self))
        | cons y ys =>
          -- Behind its bracket, an array goes on as its items do behind their comma.
          have hitems : writeItems l (i + 1) (x :: xs) ++ (l.gap i ++ ']' :: r) =
              writeItems l (i + 1) (y :: ys) ++ (l.gap i ++ ']' :: s) := by
            simpa [write, writeItems] using h
          obtain ⟨hjs, hbehind⟩ := items_append_inj hl hj hk hitems
          exact ⟨congrArg Json.array hjs, hbehind⟩

theorem tells_object (hl : l.Blank) {ms : List (String × Json)} (hexact : ∀ m ∈ ms, Exact m.2)
    (hm : ∀ m ∈ ms, Tells l m.2) : Tells l (.object ms) := by
  intro k i r s hk _ _ h
  cases (Exact.object hexact).alike hk h with
  | object _ ns =>
    cases hk with
    | object hn =>
      cases ms with
      | nil =>
        cases ns with
        | nil => exact ⟨rfl, List.append_cancel_left h⟩
        | cons y ys =>
          simp only [write, List.cons_append, List.append_assoc, List.nil_append, List.cons.injEq,
            true_and] at h
          exact absurd h (close_ne_gap_name hl y.1)
      | cons x xs =>
        cases ns with
        | nil =>
          simp only [write, List.cons_append, List.append_assoc, List.nil_append, List.cons.injEq,
            true_and] at h
          exact absurd h.symm (close_ne_gap_name hl x.1)
        | cons y ys =>
          have hmembers : writeMembers l (i + 1) (x :: xs) ++ (l.gap i ++ '\x7d' :: r) =
              writeMembers l (i + 1) (y :: ys) ++ (l.gap i ++ '\x7d' :: s) := by
            simpa [write, writeMembers] using h
          obtain ⟨hms, hbehind⟩ := members_append_inj hl hm hn hmembers
          exact ⟨congrArg Json.object hms, hbehind⟩

theorem Exact.tells (hl : l.Blank) (h : Exact j) : Tells l j := by
  induction h with
  | array hexact ih => exact tells_array hl hexact ih
  | object hexact ih => exact tells_object hl hexact ih
  | null =>
    intro k i r s hk _ _ h
    cases Exact.null.alike hk h with
    | null => exact ⟨rfl, List.append_cancel_left h⟩
  | bool b =>
    intro k i r s hk _ _ h
    cases (Exact.bool b).alike hk h with
    | bool => exact ⟨rfl, List.append_cancel_left h⟩
  | integer n =>
    intro k i r s hk hr hs h
    cases (Exact.integer n).alike hk h with
    | number =>
      cases hk with
      | integer m =>
        rw [write, write] at h
        obtain ⟨rfl, hrest⟩ := writeInteger_append_inj hr hs h
        exact ⟨rfl, hrest⟩
  | string t =>
    intro k i r s hk _ _ h
    cases (Exact.string t).alike hk h with
    | string =>
      rw [write, write] at h
      obtain ⟨rfl, hrest⟩ := writeString_append_inj h
      exact ⟨rfl, hrest⟩

theorem Exact.pretty_inj (hj : Exact j) (hk : Exact k) : pretty j = pretty k ↔ j = k := by
  refine ⟨?_, congrArg pretty⟩
  intro h
  have hchars : write .pretty 0 j = write .pretty 0 k := String.ofList_injective h
  exact (hj.tells Layout.blank_pretty hk Reader.apart_nil Reader.apart_nil
    (congrArg (· ++ []) hchars)).1

end PercentFormat.Json
