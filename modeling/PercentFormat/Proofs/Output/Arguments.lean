import PercentFormat.Proofs.Template.WellFormed

/-!
# Arguments of a rendering

A compiled template names every argument that its directives look at. With that many arguments each
directive shows its own, and further arguments only add to the end.
-/

namespace PercentFormat

/-! ## Texts of tokens -/

/-- What a directive shows of its argument. -/
def Directive.shown (d : Directive) (letter arg : String) : String :=
  match d.verb with
  | .str =>
    Edit.allAdded (Show.plain d.flags (Show.Measure.number? d.width)
      (Show.Measure.number? d.precision) arg)
  | .quoted =>
    Edit.allAdded (Show.quoted d.flags (Show.Measure.number? d.width)
      (Show.Measure.number? d.precision) arg)
  | .hex =>
    Edit.allAdded (Show.hexBytes d.flags (Show.Measure.number? d.width)
      (Show.Measure.number? d.precision) arg)
  | .bad => "%!" ++ letter ++ "(string=" ++ arg ++ ")"

/-- What a star shows. -/
def Measure.starText (text : String) : Option Measure → String
  | some (.indirect _) => text
  | _ => ""

/-- A token is shown from arguments when it is a literal, or a directive that has its own argument
and one for each of its stars. -/
inductive Token.ShownFrom (t : Template) (args : List String) : Token → String → Prop
  | literal (span : Span) : ShownFrom t args (.literal span) (span.cut t.text)
  | directive {span : Span} {d : Directive} {arg : String} (given : args[d.arg]? = some arg)
      (width : ∀ i, d.width = some (.indirect i) → i < args.length)
      (precision : ∀ i, d.precision = some (.indirect i) → i < args.length) :
      ShownFrom t args (.directive span d)
        (Measure.starText "%!(BADWIDTH)" d.width ++ Measure.starText "%!(BADPREC)" d.precision ++
          d.shown (span.cut t.text) arg)

theorem allAdded_argument (letter : String) (d : Directive) (arg : String) :
    Edit.allAdded (Show.argument letter d (Show.Measure.number? d.width)
      (Show.Measure.number? d.precision) arg) = d.shown letter arg := by
  unfold Show.argument Directive.shown
  cases d.verb with
  | str => rfl
  | quoted => rfl
  | hex => rfl
  | bad => simp [Edit.added, ← String.append_assoc]

theorem allAdded_complaint (text : String) (m : Option Measure) :
    Edit.allAdded (Show.Measure.complaint text m) = Measure.starText text m := by
  rcases m with _ | m
  · rfl
  · cases m with
    | fixed n => rfl
    | indirect i =>
      simp only [Show.Measure.complaint, Measure.starText, Edit.allAdded_cons, Edit.allAdded_nil,
        Edit.added, String.append_empty]

theorem isOutside_eq_false {args : List String} {m : Option Measure}
    (h : ∀ i, m = some (.indirect i) → i < args.length) :
    Show.Measure.isOutside args m = false := by
  rcases m with _ | m
  · rfl
  · cases m with
    | fixed n => rfl
    | indirect i => exact decide_eq_false (Nat.not_le.mpr (h i rfl))

/-- Only the verb looks at an argument. -/
theorem directive_given {args : List String} {letter arg : String} {d : Directive}
    (given : args[d.arg]? = some arg)
    (width : ∀ i, d.width = some (.indirect i) → i < args.length)
    (precision : ∀ i, d.precision = some (.indirect i) → i < args.length) :
    Show.directive args letter d =
      Show.Measure.complaint "%!(BADWIDTH)" d.width ++
        Show.Measure.complaint "%!(BADPREC)" d.precision ++
        Show.argument letter d (Show.Measure.number? d.width)
          (Show.Measure.number? d.precision) arg := by
  simp only [Show.directive, isOutside_eq_false width, isOutside_eq_false precision, given,
    Bool.or_self, Bool.false_eq_true, if_false]

namespace Token.ShownFrom

variable {t : Template} {args : List String} {k : Token} {s : String}

theorem allAdded (h : k.ShownFrom t args s) : Edit.allAdded (t.tokenEdits args k) = s := by
  cases h with
  | literal span =>
    rw [Template.tokenEdits, Edit.allAdded_cons, Edit.allAdded_nil, Edit.added,
      String.append_empty]
  | directive given width precision =>
    rw [Template.tokenEdits, directive_given given width precision, Edit.allAdded_append,
      Edit.allAdded_append, allAdded_complaint, allAdded_complaint, allAdded_argument]

/-- What is shown stays the same when arguments are added at the end. -/
theorem append (h : k.ShownFrom t args s) (extra : List String) :
    k.ShownFrom t (args ++ extra) s := by
  have hle : args.length ≤ (args ++ extra).length := by simp
  cases h with
  | literal span => exact .literal span
  | @directive span d arg given width precision =>
    refine .directive ?_ (fun i hi => Nat.lt_of_lt_of_le (width i hi) hle)
      (fun i hi => Nat.lt_of_lt_of_le (precision i hi) hle)
    obtain ⟨hd, -⟩ := List.getElem?_eq_some_iff.mp given
    rw [List.getElem?_append_left hd, given]

end Token.ShownFrom

/-- The text of tokens is the texts of all of them. -/
theorem allAdded_tokens {t : Template} {args : List String} {ks : List Token}
    {texts : List String} (h : List.Forall₂ (Token.ShownFrom t args) ks texts) :
    Edit.allAdded (ks.flatMap (t.tokenEdits args)) = String.join texts :=
  Edit.allAdded_flatMap (h.imp fun _ _ hk => hk.allAdded)

/-! ## Surplus arguments -/

theorem allAdded_surplusArgs (extra : List String) :
    Edit.allAdded (Show.surplusArgs extra) =
      String.intercalate ", " (extra.map fun a => "string=" ++ a) := by
  induction extra with
  | nil => rfl
  | cons a extra ih =>
    cases extra with
    | nil =>
      simp only [Show.surplusArgs, Edit.allAdded_cons, Edit.allAdded_nil, Edit.added,
        String.append_empty, List.map_cons, List.map_nil, String.intercalate_singleton]
    | cons b extra =>
      rw [List.map_cons, List.map_cons, String.intercalate_cons_cons, ← List.map_cons, ← ih]
      simp only [Show.surplusArgs, Edit.allAdded_cons, Edit.added, String.append_assoc]

/-- What is shown of arguments that no directive names. -/
def surplusText (extra : List String) : String :=
  if extra = [] then ""
  else "%!(EXTRA " ++ String.intercalate ", " (extra.map fun a => "string=" ++ a) ++ ")"

theorem allAdded_surplus (extra : List String) :
    Edit.allAdded (Show.surplus extra) = surplusText extra := by
  unfold Show.surplus surplusText
  cases extra with
  | nil => rfl
  | cons a extra =>
    rw [if_neg (by simp), if_neg (by simp), List.cons_append, Edit.allAdded_cons,
      Edit.allAdded_append, allAdded_surplusArgs, Edit.allAdded_cons, Edit.allAdded_nil, Edit.added,
      Edit.added, String.append_empty, String.append_assoc]
    rfl

/-! ## Renderings -/

namespace Template

theorem render_eq_tokens (t : Template) (args : List String) :
    t.render args = Edit.allAdded (t.tokens.flatMap (t.tokenEdits args)) ++
      surplusText (args.drop t.required) := by
  rw [render_eq, edits, List.cons_append, Edit.allAdded_cons, Edit.allAdded_append,
    allAdded_surplus, Edit.added, String.empty_append]

theorem render_of_shown {t : Template} {args texts : List String}
    (h : List.Forall₂ (Token.ShownFrom t args) t.tokens texts) :
    t.render args = String.join texts ++ surplusText (args.drop t.required) := by
  rw [render_eq_tokens, allAdded_tokens h]

/-- A well-formed template that is given the arguments it names shows each token. -/
theorem WellFormed.exists_shown {t : Template} (h : t.WellFormed) {args : List String}
    (hargs : t.required ≤ args.length) :
    ∃ texts, List.Forall₂ (Token.ShownFrom t args) t.tokens texts := by
  have hall : ∀ k ∈ t.tokens, ∃ s, k.ShownFrom t args s := by
    intro k hk
    cases k with
    | literal span => exact ⟨_, .literal span⟩
    | directive span d =>
      obtain ⟨c, -, hd⟩ := h.directive span d hk
      have harg : d.arg < args.length := Nat.lt_of_lt_of_le hd.arg hargs
      refine ⟨_, .directive (List.getElem?_eq_getElem harg) ?_ ?_⟩
      · intro i hi
        exact Nat.lt_of_lt_of_le (hd.width (.indirect i) hi) hargs
      · intro i hi
        exact Nat.lt_of_lt_of_le (hd.precision (.indirect i) hi) hargs
  generalize t.tokens = ks at hall ⊢
  induction ks with
  | nil => exact ⟨[], .nil⟩
  | cons k ks ih =>
    obtain ⟨s, hs⟩ := hall k (by simp)
    obtain ⟨texts, ht⟩ := ih fun j hj => hall j (List.mem_cons_of_mem _ hj)
    exact ⟨s :: texts, .cons hs ht⟩

/-- With as many arguments as a format names, each directive shows its own. Arguments beyond these
are listed behind the same text. -/
theorem render_append_surplus (format : String) (args : List String)
    (h : args.length = (compile format).required) :
    (∀ extra, extra ≠ [] →
      (compile format).render (args ++ extra) =
        (compile format).render args ++
          ("%!(EXTRA " ++ String.intercalate ", " (extra.map fun a => "string=" ++ a) ++ ")")) ∧
      ∃ texts,
        List.Forall₂ (Token.ShownFrom (compile format) args) (compile format).tokens texts ∧
          (compile format).render args = String.join texts := by
  obtain ⟨texts, ht⟩ := (wellFormed_compile format).exists_shown (Nat.le_of_eq h.symm)
  have halone : (compile format).render args = String.join texts := by
    rw [render_of_shown ht, ← h, List.drop_length, surplusText, if_pos rfl, String.append_empty]
  refine ⟨?_, texts, ht, halone⟩
  intro extra hextra
  have hmore := ht.imp fun k s hk => hk.append extra
  rw [halone, render_of_shown hmore, ← h, List.drop_left, surplusText, if_neg hextra]

theorem render_append_surplus_stars :
    ["w", "p", "x"].length = (compile "<%*.*q>%[1]d").required ∧ ["y", "z"] ≠ [] ∧
      (compile "<%*.*q>%[1]d").render (["w", "p", "x"] ++ ["y", "z"]) =
        (compile "<%*.*q>%[1]d").render ["w", "p", "x"] ++
          ("%!(EXTRA " ++ String.intercalate ", " ["string=y", "string=z"] ++ ")") := by
  have h : ["w", "p", "x"].length = (compile "<%*.*q>%[1]d").required := by decide +kernel
  exact ⟨h, by simp, (render_append_surplus _ _ h).1 ["y", "z"] (by simp)⟩

end Template

end PercentFormat
