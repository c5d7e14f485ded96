import PercentFormat.Proofs.Output.Markers

/-!
# Arguments that matter

A rendering looks at an argument only where a directive shows it or where it is surplus. Of an
argument that a star takes, or that no index points at, it only knows whether it is there.
-/

namespace PercentFormat

def Token.arg? : Token → Option Nat
  | .literal _ => none
  | .directive _ d => some d.arg

/-- The arguments that the stars of a token take. -/
def Token.starArgs : Token → List Nat
  | .literal _ => []
  | .directive _ d => [d.width, d.precision].filterMap Grammar.argument?

theorem Grammar.argument?_eq_some_iff {m : Option Measure} {i : Nat} :
    argument? m = some i ↔ m = some (.indirect i) := by
  rcases m with _ | m
  · simp [argument?]
  · cases m <;> simp [argument?]

theorem isOutside_congr {a b : List String} (h : a.length = b.length) (m : Option Measure) :
    Show.Measure.isOutside a m = Show.Measure.isOutside b m := by
  rw [Bool.eq_iff_iff, isOutside_iff, isOutside_iff, h]

/-- A directive looks at its own argument and at the number of all. -/
theorem directive_congr {a b : List String} {d : Directive} (hlength : a.length = b.length)
    (harg : a[d.arg]? = b[d.arg]?) (letter : String) :
    Show.directive a letter d = Show.directive b letter d := by
  simp only [Show.directive, isOutside_congr hlength, harg]

namespace Template

/-- The arguments that directives show, in the order of the directives. -/
def shownArgs (t : Template) : List Nat := t.tokens.filterMap Token.arg?

/-- The arguments that stars take. -/
def starArgs (t : Template) : List Nat := t.tokens.flatMap Token.starArgs

theorem mem_shownArgs {t : Template} {span : Span} {d : Directive}
    (h : .directive span d ∈ t.tokens) : d.arg ∈ t.shownArgs :=
  List.mem_filterMap.mpr ⟨_, h, rfl⟩

theorem WellFormed.lt_required_of_star {t : Template} (h : t.WellFormed) {i : Nat}
    (hi : i ∈ t.starArgs) : i < t.required := by
  obtain ⟨k, hk, hik⟩ := List.mem_flatMap.mp hi
  cases k with
  | literal span => simp [Token.starArgs] at hik
  | directive span d =>
    obtain ⟨c, -, hd⟩ := h.directive span d hk
    obtain ⟨m, hm, him⟩ := List.mem_filterMap.mp hik
    rw [Grammar.argument?_eq_some_iff] at him
    simp only [List.mem_cons, List.not_mem_nil, or_false] at hm
    obtain rfl | rfl := hm
    · exact hd.width (.indirect i) him
    · exact hd.precision (.indirect i) him

/-- Two argument lists that differ at most in what a template does not show. -/
structure Agree (t : Template) (a b : List String) : Prop where
  length : a.length = b.length
  shown : ∀ i ∈ t.shownArgs, a[i]? = b[i]?
  surplus : ∀ i, t.required ≤ i → a[i]? = b[i]?

/-- Lists that differ at a single argument, neither shown nor surplus, agree. -/
theorem agree_set {t : Template} {i : Nat} (hnamed : i < t.required) (hshown : i ∉ t.shownArgs)
    (args : List String) (s : String) : t.Agree (args.set i s) args := by
  refine ⟨List.length_set, ?_, ?_⟩
  · intro j hj
    have hne : i ≠ j := fun he => hshown (he ▸ hj)
    exact List.getElem?_set_ne hne
  · intro j hj
    have hne : i ≠ j := Nat.ne_of_lt (Nat.lt_of_lt_of_le hnamed hj)
    exact List.getElem?_set_ne hne

namespace Agree

variable {t : Template} {a b : List String}

theorem tokenEdits (h : t.Agree a b) {k : Token} (hk : k ∈ t.tokens) :
    t.tokenEdits a k = t.tokenEdits b k := by
  cases k with
  | literal span => rfl
  | directive span d =>
    exact directive_congr h.length (h.shown d.arg (mem_shownArgs hk)) (span.cut t.text)

theorem drop_required (h : t.Agree a b) : a.drop t.required = b.drop t.required := by
  apply List.ext_getElem?
  intro i
  rw [List.getElem?_drop, List.getElem?_drop]
  exact h.surplus (t.required + i) (Nat.le_add_right _ _)

/-- Token by token, both lists make the same edits. -/
theorem edits (h : t.Agree a b) : t.edits a = t.edits b := by
  have htokens : t.tokens.flatMap (t.tokenEdits a) = t.tokens.flatMap (t.tokenEdits b) :=
    List.flatMap_congr fun k hk => h.tokenEdits hk
  rw [Template.edits, Template.edits, htokens, h.drop_required]

end Agree

/-- Argument lists that agree on what a format shows and on the surplus are rendered alike, in every
buffer and with the same room. So an argument that only stars take, or that the format names without
showing it, can be any text. -/
theorem render_of_agree (format : String) :
    (∀ a b, (compile format).Agree a b →
      (compile format).render a = (compile format).render b ∧
        ∀ buffer, (compile format).renderInto a buffer = (compile format).renderInto b buffer) ∧
      ∀ args i s, i ∈ (compile format).starArgs ∨ i < (compile format).required →
        i ∉ (compile format).shownArgs →
          (compile format).render (args.set i s) = (compile format).render args := by
  have hinto {a b : List String} (h : (compile format).Agree a b) (buffer : Buffer) :
      (compile format).renderInto a buffer = (compile format).renderInto b buffer := by
    rw [renderInto, renderInto, h.edits]
  have hrender {a b : List String} (h : (compile format).Agree a b) :
      (compile format).render a = (compile format).render b :=
    congrArg Buffer.text (hinto h .empty)
  refine ⟨fun a b h => ⟨hrender h, hinto h⟩, ?_⟩
  intro args i s hnamed hshown
  have hlt : i < (compile format).required :=
    hnamed.elim (wellFormed_compile format).lt_required_of_star id
  exact hrender (agree_set hlt hshown args s)

/-- The first and the third argument are taken by stars, the second one is skipped. -/
theorem render_of_agree_stars :
    (compile "%[3]*.[1]*[4]q %d").Agree ["1", "2", "3", "shown", "bad", "x"]
        ["a", "b", "c", "shown", "bad", "x"] ∧
      (compile "%[3]*.[1]*[4]q %d").render ["1", "2", "3", "shown", "bad", "x"] =
        (compile "%[3]*.[1]*[4]q %d").render ["a", "b", "c", "shown", "bad", "x"] ∧
      (2 ∈ (compile "%[3]*.[1]*[4]q %d").starArgs ∧
        2 ∉ (compile "%[3]*.[1]*[4]q %d").shownArgs) ∧
      (compile "%[3]*.[1]*[4]q %d").render (["1", "2", "3", "shown", "bad", "x"].set 2 "new") =
        (compile "%[3]*.[1]*[4]q %d").render ["1", "2", "3", "shown", "bad", "x"] := by
  have hargs : (compile "%[3]*.[1]*[4]q %d").shownArgs = [3, 4] := by decide +kernel
  have hstars : (compile "%[3]*.[1]*[4]q %d").starArgs = [2, 0] := by decide +kernel
  have hrequired : (compile "%[3]*.[1]*[4]q %d").required = 5 := by decide +kernel
  have hagree : (compile "%[3]*.[1]*[4]q %d").Agree ["1", "2", "3", "shown", "bad", "x"]
      ["a", "b", "c", "shown", "bad", "x"] := by
    refine ⟨rfl, ?_, ?_⟩
    · rw [hargs]
      decide
    · intro i hi
      rw [hrequired] at hi
      obtain ⟨j, rfl⟩ := Nat.exists_eq_add_of_le' hi
      rfl
  have hstar : 2 ∈ (compile "%[3]*.[1]*[4]q %d").starArgs ∧
      2 ∉ (compile "%[3]*.[1]*[4]q %d").shownArgs := by
    rw [hstars, hargs]
    decide
  obtain ⟨hlists, hset⟩ := render_of_agree "%[3]*.[1]*[4]q %d"
  exact ⟨hagree, (hlists _ _ hagree).1, hstar, hset _ 2 "new" (.inl hstar.1) hstar.2⟩

end Template

end PercentFormat
