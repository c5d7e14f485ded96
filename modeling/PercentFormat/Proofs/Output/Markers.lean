import PercentFormat.Proofs.Output.Arguments
import PercentFormat.Proofs.Template.Parts

/-!
# Markers of stars

A star in front of a verb is marked in the output, right before the text of the directive, as long
as the indexes of the directive are in order. A directive that is improper is only reported as
such, whatever stars it has.
-/

namespace PercentFormat

/-! ## Texts of pieces -/

/-- What a directive shows, stars apart. -/
def Directive.ownText (args : List String) (letter : String) (d : Directive) : String :=
  if ∃ i ∈ [d.width, d.precision].filterMap Grammar.argument?, args.length ≤ i then
    "%!" ++ letter ++ "(BADINDEX)"
  else
    match args[d.arg]? with
    | none => "%!" ++ letter ++ "(MISSING)"
    | some arg => d.shown letter arg

def Piece.shown (args : List String) : Piece → String
  | .literal s => s
  | .directive c d =>
    Measure.starText "%!(BADWIDTH)" d.width ++ Measure.starText "%!(BADPREC)" d.precision ++
      d.ownText args (String.singleton c)

theorem isOutside_iff {args : List String} {m : Option Measure} :
    Show.Measure.isOutside args m = true ↔ ∃ i, Grammar.argument? m = some i ∧ args.length ≤ i := by
  rcases m with _ | m
  · simp [Show.Measure.isOutside, Grammar.argument?]
  · cases m <;> simp [Show.Measure.isOutside, Grammar.argument?]

theorem allAdded_diagnostic (letter reason : String) :
    Edit.allAdded (Show.diagnostic letter reason) = "%!" ++ letter ++ reason := by
  simp [Show.diagnostic, Edit.added, String.append_assoc]

theorem allAdded_directive (args : List String) (letter : String) (d : Directive) :
    Edit.allAdded (Show.directive args letter d) =
      Measure.starText "%!(BADWIDTH)" d.width ++ Measure.starText "%!(BADPREC)" d.precision ++
        d.ownText args letter := by
  have houtside : (Show.Measure.isOutside args d.width ||
      Show.Measure.isOutside args d.precision) = true ↔
      ∃ i ∈ [d.width, d.precision].filterMap Grammar.argument?, args.length ≤ i := by
    rw [Bool.or_eq_true, isOutside_iff, isOutside_iff]
    simp only [List.mem_filterMap, List.mem_cons, List.not_mem_nil, or_false]
    constructor
    · rintro (⟨i, hi, hle⟩ | ⟨i, hi, hle⟩)
      · exact ⟨i, ⟨d.width, .inl rfl, hi⟩, hle⟩
      · exact ⟨i, ⟨d.precision, .inr rfl, hi⟩, hle⟩
    · rintro ⟨i, ⟨m, rfl | rfl, hi⟩, hle⟩
      · exact .inl ⟨i, hi, hle⟩
      · exact .inr ⟨i, hi, hle⟩
  rw [Show.directive, Edit.allAdded_append, Edit.allAdded_append, allAdded_complaint,
    allAdded_complaint, Directive.ownText]
  congr 1
  by_cases ho : ∃ i ∈ [d.width, d.precision].filterMap Grammar.argument?, args.length ≤ i
  · rw [if_pos ho, if_pos (houtside.mpr ho), allAdded_diagnostic]
  · rw [if_neg ho, if_neg fun h => ho (houtside.mp h)]
    cases args[d.arg]? with
    | none => exact allAdded_diagnostic letter _
    | some arg => exact allAdded_argument letter d arg

/-- Joining literals does not change what is shown. -/
theorem Piece.Joined.shown {args : List String} {p : Piece} {ps qs : List Piece}
    (h : Joined p ps qs) :
    String.join (qs.map (Piece.shown args)) =
      p.shown args ++ String.join (ps.map (Piece.shown args)) := by
  cases h with
  | dropped => simp [Piece.shown]
  | one hs t ps => simp [Piece.shown, String.join_cons, String.append_assoc]
  | apart => rw [List.map_cons, String.join_cons]

theorem Piece.shown_merge (args : List String) (ps : List Piece) :
    String.join ((merge ps).map (Piece.shown args)) = String.join (ps.map (Piece.shown args)) := by
  induction ps with
  | nil => rfl
  | cons p ps ih =>
    rw [merge_cons, (cons_joined p _).shown, ih, List.map_cons, String.join_cons]

namespace Template

theorem tokenEdits_shown {t : Template} {args : List String} {k : Token} {p : Piece}
    (h : k.Shows t.text p) : Edit.allAdded (t.tokenEdits args k) = p.shown args := by
  have hcut := h.cut
  cases k with
  | literal span =>
    have hl := h.isLiteral_eq
    cases p with
    | directive c d => simp [Token.isLiteral] at hl
    | literal s =>
      rw [tokenEdits, Edit.allAdded_cons, Edit.allAdded_nil, Edit.added, String.append_empty]
      exact hcut
  | directive span d =>
    obtain ⟨c, rfl, hc⟩ := h.exists_letter
    rw [tokenEdits, allAdded_directive, hc]
    rfl

theorem allAdded_shown {t : Template} (args : List String) {ks : List Token} {ps : List Piece}
    (h : List.Forall₂ (Token.Shows t.text) ks ps) :
    Edit.allAdded (ks.flatMap (t.tokenEdits args)) = String.join (ps.map (Piece.shown args)) :=
  Edit.allAdded_flatMap (List.forall₂_map_right_iff.mpr (h.imp fun _ _ hk => tokenEdits_shown hk))

/-- A template shows its pieces one after the other, and then the surplus arguments. -/
theorem render_ofPieces (ps : List Piece) (n : Nat) (args : List String) :
    (ofPieces ps n).render args =
      String.join (ps.map (Piece.shown args)) ++ surplusText (args.drop n) := by
  rw [render_eq_tokens, allAdded_shown args (tokens_show ps n), Piece.shown_merge]
  rfl

end Template

/-! ## Complete directives -/

namespace Spelling

namespace Form

/-- The markers of the stars, the width's first. -/
def markers (f : Form) : String :=
  (if f.width.isStar then "%!(BADWIDTH)" else "") ++
    (if f.precision.any (·.amount.isStar) then "%!(BADPREC)" else "")

/-- An improper directive loses its markers. -/
def shownMarkers (f : Form) : String := if f.isProper then f.markers else ""

/-- What a directive shows, stars apart. -/
def ownText (args : List String) (next : Nat) (f : Form) : String :=
  if f.isProper then (f.directive next).ownText args (String.singleton f.letter)
  else badIndex f.letter

theorem shown_piece (args : List String) (next : Nat) (f : Form) :
    (f.piece next).shown args = f.shownMarkers ++ f.ownText args next := by
  cases hp : f.isProper with
  | false => simp [piece, shownMarkers, ownText, hp, Piece.shown]
  | true =>
    have hwidth : Measure.starText "%!(BADWIDTH)" (f.directive next).width =
        if f.width.isStar then "%!(BADWIDTH)" else "" := by
      simp only [directive]
      cases f.width <;> rfl
    have hprecision : Measure.starText "%!(BADPREC)" (f.directive next).precision =
        if f.precision.any (·.amount.isStar) then "%!(BADPREC)" else "" := by
      simp only [directive]
      rcases f.precision with _ | ⟨index, amount⟩
      · rfl
      · cases amount <;> rfl
    simp only [piece, shownMarkers, ownText, hp, if_true, Piece.shown, hwidth, hprecision, markers]

end Form

/-- The texts of items, each directive's own text behind its markers. -/
def texts (markers : Form → String) (args : List String) (next : Nat) : List Item → List String
  | [] => []
  | .literal text _ :: items => String.ofList text :: texts markers args next items
  | .escape _ :: items => "%" :: texts markers args next items
  | .directive f :: items =>
    (markers f ++ f.ownText args next) :: texts markers args (f.behind next) items

theorem shown_pieces (args : List String) (next : Nat) (items : List Item) :
    (pieces next items).map (Piece.shown args) = texts Form.shownMarkers args next items := by
  induction items generalizing next with
  | nil => rfl
  | cons item items ih =>
    cases item with
    | literal text free => simp only [pieces, texts, List.map_cons, ih, Piece.shown]
    | escape marks => simp only [pieces, texts, List.map_cons, ih, Piece.shown]
    | directive f => simp only [pieces, texts, List.map_cons, ih, f.shown_piece]

theorem Form.shownMarkers_eq_iff (f : Form) :
    f.shownMarkers = f.markers ↔ f.isProper = true ∨ f.markers = "" := by
  cases hp : f.isProper with
  | true => simp [shownMarkers, hp]
  | false =>
    simp only [shownMarkers, hp, Bool.false_eq_true, if_false, false_or]
    exact eq_comm

theorem Form.size_shownMarkers_le (f : Form) :
    f.shownMarkers.utf8ByteSize ≤ f.markers.utf8ByteSize := by
  unfold shownMarkers
  split
  · exact Nat.le_refl _
  · exact Nat.zero_le _

theorem size_texts_le (args : List String) (next : Nat) (items : List Item) :
    (String.join (texts Form.shownMarkers args next items)).utf8ByteSize ≤
      (String.join (texts Form.markers args next items)).utf8ByteSize := by
  induction items generalizing next with
  | nil => exact Nat.le_refl _
  | cons item items ih =>
    cases item with
    | literal text free =>
      simpa [texts, String.join_cons, String.utf8ByteSize_append] using ih next
    | escape marks => simpa [texts, String.join_cons, String.utf8ByteSize_append] using ih next
    | directive f =>
      have hf := f.size_shownMarkers_le
      have hrest := ih (f.behind next)
      simp only [texts, String.join_cons, String.utf8ByteSize_append]
      omega

/-- A marker that is lost is missing in the whole text. -/
theorem join_texts_eq_iff (args : List String) (next : Nat) (items : List Item) :
    String.join (texts Form.shownMarkers args next items) =
        String.join (texts Form.markers args next items) ↔
      ∀ f, .directive f ∈ items → f.shownMarkers = f.markers := by
  induction items generalizing next with
  | nil => simp [texts]
  | cons item items ih =>
    cases item with
    | literal text free => simp [texts, String.join_cons, ih]
    | escape marks => simp [texts, String.join_cons, ih]
    | directive f =>
      have hf := f.size_shownMarkers_le
      have hrest := size_texts_le args (f.behind next) items
      simp only [texts, String.join_cons, List.mem_cons, Item.directive.injEq, forall_eq_or_imp,
        ← ih (f.behind next)]
      constructor
      · intro h
        have hsize := congrArg String.utf8ByteSize h
        simp only [String.utf8ByteSize_append] at hsize
        have hmarkers : f.shownMarkers = f.markers := by
          rw [Form.shownMarkers_eq_iff]
          cases hp : f.isProper with
          | true => exact .inl rfl
          | false =>
            refine .inr ?_
            have hnone : f.shownMarkers = "" := by simp [Form.shownMarkers, hp]
            rw [hnone] at hsize
            rw [← String.utf8ByteSize_eq_zero_iff]
            have hzero : "".utf8ByteSize = 0 := rfl
            omega
        rw [hmarkers] at h
        exact ⟨hmarkers, (String.append_right_inj _).mp h⟩
      · rintro ⟨hmarkers, htexts⟩
        rw [hmarkers, htexts]

end Spelling

/-! ## Formats -/

namespace Template

open Spelling

/-- Directives show their markers and then their own texts, but improper ones have lost the
markers. So every star is marked exactly when all directives with stars are proper. -/
theorem render_complete {items : List Item} (h : Complete items) (args : List String) :
    let t := compile (String.ofList (Spelling.print items))
    t.render args =
        String.join (texts Form.shownMarkers args 0 items) ++
          surplusText (args.drop t.required) ∧
      (t.render args =
          String.join (texts Form.markers args 0 items) ++
            surplusText (args.drop t.required) ↔
        ∀ f, .directive f ∈ items → f.isProper = true ∨ f.markers = "") := by
  intro t
  have hpieces := merge_pieces h {}
  have hrender : t.render args = String.join (texts Form.shownMarkers args 0 items) ++
      surplusText (args.drop t.required) := by
    have ht : t = ofPieces (pieces 0 items) t.required := by
      rw [← ofPieces_congr hpieces, ← String.toList_ofList (l := Spelling.print items)]
      rfl
    rw [← shown_pieces, ← render_ofPieces, ← ht]
  refine ⟨hrender, ?_⟩
  rw [hrender, String.append_left_inj, join_texts_eq_iff]
  simp only [Form.shownMarkers_eq_iff]

/-- A directive that lacks its argument keeps its markers, one with a bad index loses them. -/
theorem render_complete_starred :
    let items : List Item :=
      [.directive ⟨[.minus], .closed ['2'] (by decide), .star, some ⟨.absent, .star⟩, .absent, 's'⟩,
        .literal ['|'] (by decide),
        .directive ⟨[], .absent, .star, none, .closed ['0'] (by decide), 's'⟩]
    let t := compile (String.ofList (Spelling.print items))
    Complete items ∧ String.ofList (Spelling.print items) = "%-[2]*.*s|%*[0]s" ∧
      t.render ["1", "2", "x"] = "%!(BADWIDTH)%!(BADPREC)%!s(MISSING)|%!s(BADINDEX)" ∧
      t.render ["1", "2", "x"] ≠
        String.join (texts Form.markers ["1", "2", "x"] 0 items) ++
          surplusText (["1", "2", "x"].drop t.required) := by
  intro items t
  have h : Complete items := by decide
  obtain ⟨hrender, hall⟩ := render_complete h ["1", "2", "x"]
  refine ⟨h, by decide, ?_, ?_⟩
  · rw [hrender]
    decide +kernel
  · intro hmarked
    have hlast := hall.mp hmarked
      ⟨[], .absent, .star, none, .closed ['0'] (by decide), 's'⟩ (by simp [items])
    revert hlast
    decide

theorem not_all_stars_marked :
    ¬ ∀ items, Complete items → ∀ args,
      let t := compile (String.ofList (Spelling.print items))
      t.render args =
        String.join (texts Form.markers args 0 items) ++ surplusText (args.drop t.required) := by
  intro h
  have hone := h [.directive ⟨[], .absent, .star, none, .closed ['0'] (by decide), 's'⟩]
    (by decide) ["7"]
  revert hone
  decide +kernel

end Template

end PercentFormat
