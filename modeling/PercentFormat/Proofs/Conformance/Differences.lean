import Mathlib.Order.Bounds.Basic
import PercentFormat.Conformance.Diff
import PercentFormat.Proofs.Text.Decimal
import PercentFormat.Proofs.Text.Lines
import PercentFormat.Proofs.Text.Literals

/-!
# Differences tell the whole difference

A difference of two texts is a list of lines: a head, the changes in the order of their numbers and
the number of the characters that both begin with. With one of the two texts it gives the other.
-/

namespace PercentFormat

namespace Diff

/-! ## Changes -/

/-- What is different at a line, whose number counts from one: the line of either text. -/
@[ext]
structure Change where
  number : Nat
  expected : Option (List Char)
  actual : Option (List Char)

def changeAt (es as : List (List Char)) (i : Nat) : Option Change :=
  if es[i]? = as[i]? then none else some ⟨i + 1, es[i]?, as[i]?⟩

/-- The changes from one list of lines to another, in the order of their numbers. -/
def changes (es as : List (List Char)) : List Change :=
  (List.range (max es.length as.length)).filterMap (changeAt es as)

variable {es es' as as' : List (List Char)}

theorem changeAt_eq_some_iff {i : Nat} {c : Change} :
    changeAt es as i = some c ↔ es[i]? ≠ as[i]? ∧ c = ⟨i + 1, es[i]?, as[i]?⟩ := by
  rw [changeAt, Option.ite_none_left_eq_some, Option.some.injEq, eq_comm (a := c)]

theorem mem_changes_iff {c : Change} :
    c ∈ changes es as ↔ ∃ i, es[i]? ≠ as[i]? ∧ c = ⟨i + 1, es[i]?, as[i]?⟩ := by
  simp only [changes, List.mem_filterMap, List.mem_range, changeAt_eq_some_iff]
  constructor
  · rintro ⟨i, -, h⟩
    exact ⟨i, h⟩
  · rintro ⟨i, hdiffer, hc⟩
    refine ⟨i, ?_, hdiffer, hc⟩
    by_contra hlong
    have hes : es[i]? = none := List.getElem?_eq_none (by omega)
    have has : as[i]? = none := List.getElem?_eq_none (by omega)
    exact hdiffer (hes.trans has.symm)

theorem pairwise_changes : (changes es as).Pairwise (·.number < ·.number) := by
  rw [changes, List.pairwise_filterMap]
  refine List.pairwise_lt_range.imp ?_
  intro i j hij c hc d hd
  rw [changeAt_eq_some_iff] at hc hd
  rw [hc.2, hd.2]
  exact Nat.succ_lt_succ hij

/-- Where the changes are the same, both texts have no change at a line or both have the same. -/
theorem agree_of_changes (h : changes es as = changes es' as') (i : Nat) :
    (es[i]? = as[i]? ∧ es'[i]? = as'[i]?) ∨ (es[i]? = es'[i]? ∧ as[i]? = as'[i]?) := by
  have hiff (c : Change) : (∃ i, es[i]? ≠ as[i]? ∧ c = ⟨i + 1, es[i]?, as[i]?⟩) ↔
      ∃ i, es'[i]? ≠ as'[i]? ∧ c = ⟨i + 1, es'[i]?, as'[i]?⟩ := by
    rw [← mem_changes_iff, ← mem_changes_iff, h]
  by_cases hleft : es[i]? = as[i]?
  · by_cases hright : es'[i]? = as'[i]?
    · exact .inl ⟨hleft, hright⟩
    · obtain ⟨j, hj, hc⟩ := (hiff _).mpr ⟨i, hright, rfl⟩
      injection hc with hnumber hes has
      obtain rfl : i = j := by omega
      exact .inr ⟨hes.symm, has.symm⟩
  · obtain ⟨j, -, hc⟩ := (hiff _).mp ⟨i, hleft, rfl⟩
    injection hc with hnumber hes has
    obtain rfl : i = j := by omega
    exact .inr ⟨hes, has⟩

theorem changes_right_injective (es : List (List Char)) : Function.Injective (changes es) := by
  intro as as' h
  refine List.ext_getElem? fun i => ?_
  rcases agree_of_changes h i with ⟨hleft, hright⟩ | ⟨-, hsame⟩
  · exact hleft.symm.trans hright
  · exact hsame

theorem changes_left_injective (as : List (List Char)) : Function.Injective (changes · as) := by
  intro es es' h
  refine List.ext_getElem? fun i => ?_
  rcases agree_of_changes h i with ⟨hleft, hright⟩ | ⟨hsame, -⟩
  · exact hleft.trans hright.symm
  · exact hsame

/-! ## The lines of a change -/

def heading (number : Nat) : List Char :=
  "@@ line ".toList ++ Decimal.chars number ++ " @@".toList

def sideLines (quote : List Char → List Char) (sign : Char) (line : Option (List Char)) :
    List (List Char) :=
  (line.map fun cs => sign :: quote cs).toList

def Change.lines (quote : List Char → List Char) (c : Change) : List (List Char) :=
  heading c.number :: (sideLines quote '-' c.expected ++ sideLines quote '+' c.actual)

def closing (common : Nat) : List Char :=
  "first difference at char ".toList ++ Decimal.chars common

/-- The lines of a difference that has some changes. -/
def linesOf (quote : List Char → List Char) (cs : List Change) (common : Nat) :
    List (List Char) :=
  "--- expected".toList :: "+++ actual".toList :: (cs.flatMap (Change.lines quote) ++
    [closing common])

/-- The six ways in which a line of a difference begins. -/
def openings : List (List Char) :=
  ["--- expected".toList, "+++ actual".toList, "@@ line ".toList, "-\"".toList, "+\"".toList,
    "first difference at char ".toList]

variable {quote : List Char → List Char}

theorem heading_injective : Function.Injective heading := by
  intro m n h
  have hchars := List.append_cancel_left (List.append_cancel_right h)
  rw [← Decimal.valueFrom_chars m, hchars, Decimal.valueFrom_chars]

theorem mem_sideLines {sign : Char} {line : Option (List Char)} {l : List Char} :
    l ∈ sideLines quote sign line ↔ ∃ cs, line = some cs ∧ l = sign :: quote cs := by
  simp only [sideLines, Option.mem_toList, Option.map_eq_some_iff, eq_comm (a := l)]

/-- A line of a hunk is its heading or one side, and only the heading looks like one. -/
theorem mem_lines_cases {c : Change} {l : List Char} (h : l ∈ c.lines quote) :
    l = heading c.number ∨ (∃ cs, l = '-' :: quote cs) ∨ ∃ cs, l = '+' :: quote cs := by
  rw [Change.lines, List.mem_cons, List.mem_append, mem_sideLines, mem_sideLines] at h
  rcases h with h | ⟨cs, -, h⟩ | ⟨cs, -, h⟩
  · exact .inl h
  · exact .inr (.inl ⟨cs, h⟩)
  · exact .inr (.inr ⟨cs, h⟩)

theorem newline_not_mem_chars (n : Nat) : '\n' ∉ Decimal.chars n := by
  intro h
  exact absurd (Decimal.isDigit_chars n _ h) (by decide)

theorem newline_not_mem_linesOf (hq : Literal.Quotes quote) {cs : List Change} {common : Nat} :
    ∀ l ∈ linesOf quote cs common, '\n' ∉ l := by
  have hopenings : ∀ o ∈ openings, '\n' ∉ o := by decide +kernel
  have hends : '\n' ∉ " @@".toList := by decide +kernel
  intro l hl
  simp only [linesOf, List.mem_cons, List.mem_append, List.mem_flatMap, List.not_mem_nil,
    or_false] at hl
  rcases hl with rfl | rfl | ⟨c, -, hl⟩ | rfl
  · exact hopenings _ (List.mem_of_getElem? (i := 0) rfl)
  · exact hopenings _ (List.mem_of_getElem? (i := 1) rfl)
  · rcases mem_lines_cases hl with rfl | ⟨ds, rfl⟩ | ⟨ds, rfl⟩
    · have hopening := hopenings _ (List.mem_of_getElem? (i := 2) rfl)
      exact List.not_mem_append (List.not_mem_append hopening (newline_not_mem_chars _)) hends
    · exact List.not_mem_cons_of_ne_of_not_mem (by decide) (hq.newline_not_mem ds)
    · exact List.not_mem_cons_of_ne_of_not_mem (by decide) (hq.newline_not_mem ds)
  · have hopening := hopenings _ (List.mem_of_getElem? (i := 5) rfl)
    exact List.not_mem_append hopening (newline_not_mem_chars _)

theorem exists_opening (hq : Literal.Quotes quote) {cs : List Change} {common : Nat} :
    ∀ l ∈ linesOf quote cs common, ∃ o ∈ openings, o <+: l := by
  intro l hl
  simp only [linesOf, List.mem_cons, List.mem_append, List.mem_flatMap, List.not_mem_nil,
    or_false] at hl
  rcases hl with rfl | rfl | ⟨c, -, hl⟩ | rfl
  · exact ⟨_, List.mem_of_getElem? (i := 0) rfl, List.prefix_rfl⟩
  · exact ⟨_, List.mem_of_getElem? (i := 1) rfl, List.prefix_rfl⟩
  · rcases mem_lines_cases hl with rfl | ⟨ds, rfl⟩ | ⟨ds, rfl⟩
    · exact ⟨_, List.mem_of_getElem? (i := 2) rfl,
        (List.prefix_append _ _).trans (List.prefix_append _ _)⟩
    · obtain ⟨rest, hrest⟩ := hq.exists_cons ds
      exact ⟨_, List.mem_of_getElem? (i := 3) rfl, rest, by rw [hrest]; rfl⟩
    · obtain ⟨rest, hrest⟩ := hq.exists_cons ds
      exact ⟨_, List.mem_of_getElem? (i := 4) rfl, rest, by rw [hrest]; rfl⟩
  · exact ⟨_, List.mem_of_getElem? (i := 5) rfl, List.prefix_append _ _⟩

theorem isPrefixOf_heading (n : Nat) : "@@ line ".toList.isPrefixOf (heading n) = true := by
  rw [List.isPrefixOf_iff_prefix]
  exact (List.prefix_append _ _).trans (List.prefix_append _ _)

theorem filter_lines (c : Change) :
    (c.lines quote).filter ("@@ line ".toList.isPrefixOf ·) = [heading c.number] := by
  have hsides : ∀ l ∈ sideLines quote '-' c.expected ++ sideLines quote '+' c.actual,
      ¬ "@@ line ".toList.isPrefixOf l = true := by
    intro l hl
    rw [List.mem_append, mem_sideLines, mem_sideLines] at hl
    rcases hl with ⟨ds, -, rfl⟩ | ⟨ds, -, rfl⟩
    · exact Bool.false_ne_true
    · exact Bool.false_ne_true
  rw [Change.lines, List.filter_cons_of_pos (isPrefixOf_heading _),
    List.filter_eq_nil_iff.mpr hsides]

/-- Nothing that a difference quotes looks like the heading of a hunk. -/
theorem filter_linesOf (cs : List Change) (common : Nat) :
    (linesOf quote cs common).filter ("@@ line ".toList.isPrefixOf ·) =
      cs.map fun c => heading c.number := by
  have hchanges : (cs.flatMap (Change.lines quote)).filter ("@@ line ".toList.isPrefixOf ·) =
      cs.map fun c => heading c.number := by
    induction cs with
    | nil => rfl
    | cons c cs ih =>
      rw [List.flatMap_cons, List.filter_append, filter_lines, ih]
      rfl
  rw [linesOf, List.filter_cons_of_neg Bool.false_ne_true,
    List.filter_cons_of_neg Bool.false_ne_true, List.filter_append, hchanges,
    List.filter_cons_of_neg Bool.false_ne_true, List.filter_nil, List.append_nil]

/-! ## The text is its lines -/

theorem hunks_step (number : Nat) (h : ¬ (es = [] ∧ as = [])) :
    hunks quote number es as =
      hunk quote number es[0]? as[0]? ++ hunks quote (number + 1) es.tail as.tail := by
  cases es with
  | nil =>
    cases as with
    | nil => exact absurd ⟨rfl, rfl⟩ h
    | cons a as =>
      rw [hunks]
      rfl
  | cons e es =>
    cases as with
    | nil =>
      rw [hunks]
      rfl
    | cons a as =>
      rw [hunks]
      rfl

/-- Each line number has its own hunk, which may be empty. -/
theorem hunks_eq_flatMap (number : Nat) :
    hunks quote number es as = (List.range (max es.length as.length)).flatMap fun i =>
      hunk quote (number + i) es[i]? as[i]? := by
  induction h : max es.length as.length generalizing es as number with
  | zero =>
    obtain rfl : es = [] := List.length_eq_zero_iff.mp (by omega)
    obtain rfl : as = [] := List.length_eq_zero_iff.mp (by omega)
    rw [hunks]
    rfl
  | succ n ih =>
    have hne : ¬ (es = [] ∧ as = []) := by
      rintro ⟨rfl, rfl⟩
      exact absurd h.symm (Nat.succ_ne_zero n)
    have htail : max es.tail.length as.tail.length = n := by
      rw [List.length_tail, List.length_tail]
      omega
    rw [hunks_step number hne, ih (number + 1) htail, List.range_succ_eq_map, List.flatMap_cons,
      List.flatMap_map]
    simp only [List.getElem?_tail, Nat.add_zero, Nat.add_right_comm, Nat.add_assoc]

theorem side_eq_lines (sign : Char) (line : Option (List Char)) :
    side quote sign line = (sideLines quote sign line).flatMap (· ++ ['\n']) := by
  cases line with
  | none => rfl
  | some cs => exact (List.flatMap_singleton ..).symm

theorem hunk_eq_lines (i : Nat) :
    hunk quote (1 + i) es[i]? as[i]? =
      ((changeAt es as i).toList.flatMap (Change.lines quote)).flatMap (· ++ ['\n']) := by
  by_cases h : es[i]? = as[i]?
  · rw [changeAt, if_pos h]
    exact if_pos h
  · rw [changeAt, if_neg h, Nat.add_comm]
    refine (if_neg h).trans ?_
    have hheading : heading (i + 1) ++ ['\n'] =
        "@@ line ".toList ++ Decimal.chars (i + 1) ++ " @@\n".toList := List.append_assoc ..
    rw [Option.toList_some, List.flatMap_singleton, Change.lines, List.flatMap_cons,
      List.flatMap_append, hheading, ← side_eq_lines, ← side_eq_lines, List.append_assoc]

theorem hunks_eq_lines :
    hunks quote 1 es as =
      ((changes es as).flatMap (Change.lines quote)).flatMap (· ++ ['\n']) := by
  rw [hunks_eq_flatMap, changes, List.filterMap_eq_flatMap_toList, List.flatMap_assoc,
    List.flatMap_assoc]
  refine List.flatMap_congr fun i _ => ?_
  rw [hunk_eq_lines, List.flatMap_assoc]

theorem renderWith_of_eq {e a : String} (h : e = a) : renderWith quote e a = "[identical]" :=
  if_pos h

theorem toList_renderWith {e a : String} (h : e ≠ a) :
    (renderWith quote e a).toList =
      (linesOf quote (changes (e.toList.splitOn '\n') (a.toList.splitOn '\n'))
        (commonLength e.toList a.toList)).flatMap (· ++ ['\n']) := by
  have htext : renderWith quote e a = String.ofList ("--- expected\n+++ actual\n".toList ++
      hunks quote 1 (Text.pieces '\n' e.toList) (Text.pieces '\n' a.toList) ++
      "first difference at char ".toList ++
      Decimal.chars (commonLength e.toList a.toList) ++ ['\n']) := if_neg h
  have hhead : "--- expected\n+++ actual\n".toList =
      "--- expected".toList ++ ['\n'] ++ ("+++ actual".toList ++ ['\n']) := by decide +kernel
  rw [htext, String.toList_ofList, hunks_eq_lines, Text.pieces_eq_splitOn,
    Text.pieces_eq_splitOn, hhead, linesOf]
  simp only [List.flatMap_cons, List.flatMap_append, List.flatMap_nil, List.append_nil,
    List.append_assoc]
  rfl

theorem renderWith_eq_identical_iff {e a : String} :
    renderWith quote e a = "[identical]" ↔ e = a := by
  refine ⟨?_, renderWith_of_eq⟩
  intro h
  by_contra hne
  have htext : (renderWith quote e a).toList = _ := toList_renderWith hne
  rw [h] at htext
  exact absurd (List.cons.inj htext).1 (by decide)

/-! ## Reading a difference -/

/-- No line with a sign comes next. -/
def Unsigned (sign : Char) (ls : List (List Char)) : Prop := ∀ l ∈ ls.head?, l.head? ≠ some sign

theorem sideLines_append_inj (hq : Literal.Quotes quote) {sign : Char}
    {x y : Option (List Char)} {r s : List (List Char)} (hr : Unsigned sign r)
    (hs : Unsigned sign s) (h : sideLines quote sign x ++ r = sideLines quote sign y ++ s) :
    x = y ∧ r = s := by
  cases x with
  | none =>
    cases y with
    | none => exact ⟨rfl, h⟩
    | some ds =>
      obtain rfl : r = (sign :: quote ds) :: s := h
      exact absurd rfl (hr _ rfl)
  | some cs =>
    cases y with
    | none =>
      obtain rfl : (sign :: quote cs) :: r = s := h
      exact absurd rfl (hs _ rfl)
    | some ds =>
      obtain ⟨hline, hrest⟩ := List.cons.inj h
      exact ⟨congrArg some (hq.injective (List.cons.inj hline).2), hrest⟩

theorem unsigned_cons {sign : Char} (other : Char) (h : other ≠ sign) (cs : List Char)
    (ls : List (List Char)) : Unsigned sign ((other :: cs) :: ls) := by
  intro l hl
  obtain rfl : other :: cs = l := Option.some.inj hl
  exact fun heq => h (Option.some.inj heq)

theorem unsigned_sideLines {sign other : Char} (h : other ≠ sign) (x : Option (List Char))
    {r : List (List Char)} (hr : Unsigned sign r) :
    Unsigned sign (sideLines quote other x ++ r) := by
  cases x with
  | none => exact hr
  | some cs => exact unsigned_cons other h (quote cs) r

theorem lines_append_inj (hq : Literal.Quotes quote) {c d : Change} {r s : List (List Char)}
    (hr : Unsigned '-' r ∧ Unsigned '+' r) (hs : Unsigned '-' s ∧ Unsigned '+' s)
    (h : c.lines quote ++ r = d.lines quote ++ s) : c = d ∧ r = s := by
  rw [Change.lines, Change.lines, List.cons_append, List.cons_append, List.append_assoc,
    List.append_assoc] at h
  obtain ⟨hheading, hsides⟩ := List.cons.inj h
  have hplus : '+' ≠ '-' := by decide
  obtain ⟨hexpected, hrest⟩ := sideLines_append_inj hq (unsigned_sideLines hplus c.actual hr.1)
    (unsigned_sideLines hplus d.actual hs.1) hsides
  obtain ⟨hactual, hbehind⟩ := sideLines_append_inj hq hr.2 hs.2 hrest
  exact ⟨Change.ext (heading_injective hheading) hexpected hactual, hbehind⟩

/-- What comes behind a change is the next heading or the closing line. -/
theorem unsigned_rest (cs : List Change) (common : Nat) :
    Unsigned '-' (cs.flatMap (Change.lines quote) ++ [closing common]) ∧
      Unsigned '+' (cs.flatMap (Change.lines quote) ++ [closing common]) := by
  cases cs with
  | nil => exact ⟨unsigned_cons 'f' (by decide) _ _, unsigned_cons 'f' (by decide) _ _⟩
  | cons c cs => exact ⟨unsigned_cons '@' (by decide) _ _, unsigned_cons '@' (by decide) _ _⟩

theorem flatMap_lines_inj (hq : Literal.Quotes quote) {cs ds : List Change} {m n : Nat}
    (h : cs.flatMap (Change.lines quote) ++ [closing m] =
      ds.flatMap (Change.lines quote) ++ [closing n]) : cs = ds := by
  have happart (number common : Nat) : heading number ≠ closing common := by
    intro heq
    exact absurd (List.cons.inj heq).1 (by decide)
  induction cs generalizing ds with
  | nil =>
    cases ds with
    | nil => rfl
    | cons d ds => exact absurd (List.cons.inj h).1.symm (happart _ _)
  | cons c cs ih =>
    cases ds with
    | nil => exact absurd (List.cons.inj h).1 (happart _ _)
    | cons d ds =>
      rw [List.flatMap_cons, List.flatMap_cons, List.append_assoc, List.append_assoc] at h
      obtain ⟨rfl, hrest⟩ := lines_append_inj hq (unsigned_rest cs m) (unsigned_rest ds n) h
      rw [ih hrest]

theorem linesOf_inj (hq : Literal.Quotes quote) {cs ds : List Change} {m n : Nat}
    (h : (linesOf quote cs m).flatMap (· ++ ['\n']) = (linesOf quote ds n).flatMap (· ++ ['\n'])) :
    cs = ds := by
  have hlines := Text.terminated_inj (newline_not_mem_linesOf hq) (newline_not_mem_linesOf hq) h
  exact flatMap_lines_inj hq (List.cons.inj (List.cons.inj hlines).2).2

/-- The same difference says of both pairs of texts that they do not differ, or how they do. -/
theorem renderWith_inj (hq : Literal.Quotes quote) {e a f b : String}
    (h : renderWith quote e a = renderWith quote f b) :
    (e = a ∧ f = b) ∨
      changes (e.toList.splitOn '\n') (a.toList.splitOn '\n') =
        changes (f.toList.splitOn '\n') (b.toList.splitOn '\n') := by
  by_cases hleft : e = a
  · exact .inl ⟨hleft, renderWith_eq_identical_iff.mp (h.symm.trans (renderWith_of_eq hleft))⟩
  · by_cases hright : f = b
    · exact absurd (renderWith_eq_identical_iff.mp (h.trans (renderWith_of_eq hright))) hleft
    · have htexts := congrArg String.toList h
      rw [toList_renderWith hleft, toList_renderWith hright] at htexts
      exact .inr (linesOf_inj hq htexts)

theorem renderWith_right_injective (hq : Literal.Quotes quote) (e : String) :
    Function.Injective (renderWith quote e) := by
  intro a b h
  rcases renderWith_inj hq h with ⟨ha, hb⟩ | hchanges
  · exact ha.symm.trans hb
  · exact String.toList_injective
      (Text.splitOn_injective '\n' (changes_right_injective _ hchanges))

theorem renderWith_left_injective (hq : Literal.Quotes quote) (a : String) :
    Function.Injective (renderWith quote · a) := by
  intro e f h
  rcases renderWith_inj hq h with ⟨he, hf⟩ | hchanges
  · exact he.trans hf.symm
  · exact String.toList_injective
      (Text.splitOn_injective '\n' (changes_left_injective _ hchanges))

/-! ## The whole report -/

theorem isGreatest_commonLength (e a : List Char) :
    IsGreatest {n | ∃ p : List Char, p <+: e ∧ p <+: a ∧ p.length = n} (commonLength e a) := by
  induction e generalizing a with
  | nil =>
    refine ⟨⟨[], List.nil_prefix, List.nil_prefix, rfl⟩, ?_⟩
    rintro n ⟨p, hp, -, rfl⟩
    rw [List.prefix_nil.mp hp]
    exact Nat.zero_le _
  | cons x e ih =>
    cases a with
    | nil =>
      refine ⟨⟨[], List.nil_prefix, List.nil_prefix, rfl⟩, ?_⟩
      rintro n ⟨p, -, hp, rfl⟩
      rw [List.prefix_nil.mp hp]
      exact Nat.zero_le _
    | cons y a =>
      rw [commonLength]
      split
      case isTrue h =>
        obtain ⟨⟨p, he, ha, hlength⟩, hgreatest⟩ := ih a
        refine ⟨⟨x :: p, ?_, ?_, ?_⟩, ?_⟩
        · exact List.cons_prefix_cons.mpr ⟨rfl, he⟩
        · exact List.cons_prefix_cons.mpr ⟨h, ha⟩
        · rw [List.length_cons, hlength]
        · rintro n ⟨q, hq, hqa, rfl⟩
          cases q with
          | nil => exact Nat.zero_le _
          | cons z q =>
            have hshort := hgreatest ⟨q, (List.cons_prefix_cons.mp hq).2,
              (List.cons_prefix_cons.mp hqa).2, rfl⟩
            exact Nat.succ_le_succ hshort
      case isFalse h =>
        refine ⟨⟨[], List.nil_prefix, List.nil_prefix, rfl⟩, ?_⟩
        rintro n ⟨q, hq, hqa, rfl⟩
        cases q with
        | nil => exact Nat.le_refl _
        | cons z q =>
          have hx := (List.cons_prefix_cons.mp hq).1
          have hy := (List.cons_prefix_cons.mp hqa).1
          exact absurd (hx.symm.trans hy) h

/-- What a difference of two texts that are not the same says. -/
structure Reports (quote : List Char → List Char) (e a : String) (cs : List Change)
    (common : Nat) : Prop where
  text : (renderWith quote e a).toList = (linesOf quote cs common).flatMap (· ++ ['\n'])
  opened : ∀ l ∈ linesOf quote cs common, '\n' ∉ l ∧ ∃ o ∈ openings, o <+: l
  headings : (linesOf quote cs common).filter ("@@ line ".toList.isPrefixOf ·) =
    cs.map fun c => heading c.number
  mem_changes : ∀ c, c ∈ cs ↔ ∃ i, (e.toList.splitOn '\n')[i]? ≠ (a.toList.splitOn '\n')[i]? ∧
    c = ⟨i + 1, (e.toList.splitOn '\n')[i]?, (a.toList.splitOn '\n')[i]?⟩
  increasing : cs.Pairwise (·.number < ·.number)
  common : IsGreatest {n | ∃ p : List Char, p <+: e.toList ∧ p <+: a.toList ∧ p.length = n} common

theorem exists_reports (hq : Literal.Quotes quote) {e a : String} (h : e ≠ a) :
    ∃ cs common, Reports quote e a cs common :=
  ⟨changes (e.toList.splitOn '\n') (a.toList.splitOn '\n'), commonLength e.toList a.toList, {
    text := toList_renderWith h
    opened := fun l hl => ⟨newline_not_mem_linesOf hq l hl, exists_opening hq l hl⟩
    headings := filter_linesOf _ _
    mem_changes := fun _ => mem_changes_iff
    increasing := pairwise_changes
    common := isGreatest_commonLength _ _ }⟩

/-- A difference says whether the texts differ and every line in which they do, whatever the table
of printable characters. One of the texts and the difference determine the other text. -/
theorem difference_told (hq : Literal.Quotes quote) :
    (∀ e a, renderWith quote e a = "[identical]" ↔ e = a) ∧
      (∀ e a, e ≠ a → ∃ cs common, Reports quote e a cs common) ∧
      (∀ e, Function.Injective (renderWith quote e)) ∧
      ∀ a, Function.Injective (renderWith quote · a) :=
  ⟨fun _ _ => renderWith_eq_identical_iff, fun _ _ h => exists_reports hq h,
    renderWith_right_injective hq, renderWith_left_injective hq⟩

theorem difference_told_render :
    (Literal.Quotes Literal.quote ∧
      Literal.Quotes (Literal.quoteFirst Literal.isPlain Unicode.isPrintable)) ∧
    (render "a\nb" "a\nc" ≠ "[identical]" ∧
      ∃ cs common, Reports Literal.quote "a\nb" "a\nc" cs common) ∧
    render "a\nb" "a\nc" ≠ render "a\nb" "a\nc\n" ∧
    renderWith (Literal.quoteFirst Literal.isPlain Unicode.isPrintable) "a\nb" "a\nc" ≠
      renderWith (Literal.quoteFirst Literal.isPlain Unicode.isPrintable) "a" "a\nc" := by
  have hquote : Literal.Quotes Literal.quote := Literal.quotes_quoteWith Literal.isPlain
  have hfirst := Literal.quotes_quoteFirst Literal.isPlain Unicode.isPrintable
  obtain ⟨hidentical, hreports, hactual, -⟩ := difference_told hquote
  obtain ⟨-, -, -, hexpected⟩ := difference_told hfirst
  refine ⟨⟨hquote, hfirst⟩, ⟨?_, hreports "a\nb" "a\nc" (by decide)⟩, ?_, ?_⟩
  · exact mt (hidentical "a\nb" "a\nc").mp (by decide)
  · exact (hactual "a\nb").ne (by decide)
  · exact (hexpected "a\nc").ne (by decide)

end Diff

end PercentFormat
