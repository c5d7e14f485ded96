import Mathlib.Data.List.Basic
import PercentFormat.Proofs.Json.Uniqueness
import PercentFormat.Proofs.Template.WellFormed

/-!
# Listings are faithful

A listing shows the pieces that a template was laid out from, and nothing that it leaves out tells
two templates of pieces apart. So compiled formats are the same when their listings are, or when
the texts of those are.
-/

namespace PercentFormat

/-! ## Texts of listings -/

namespace Json

theorem ofNat_injective : Function.Injective ofNat := by
  intro m n h
  exact Int.ofNat_inj.mp (Number.integer.inj (Json.number.inj h))

theorem ofStrings_injective : Function.Injective ofStrings := by
  have hstring : Function.Injective Json.string := fun _ _ => Json.string.inj
  intro ss ts h
  exact hstring.list_map (Json.array.inj h)

theorem exact_ofStrings (ss : List String) : Exact (.ofStrings ss) := by
  refine .array fun j hj => ?_
  obtain ⟨s, -, rfl⟩ := List.mem_map.mp hj
  exact .string s

theorem lookup_singleton (name member : String) (j : Json) :
    [(member, j)].lookup name = if name = member then some j else none := by
  by_cases h : name = member
  · simp [h]
  · simp [List.lookup_cons, beq_false_of_ne h, h]

theorem lookup_memberIfSome {α : Type} (name member : String) (write : α → Json) (x : Option α) :
    (memberIfSome member write x).lookup name = if name = member then x.map write else none := by
  cases x with
  | none => simp [memberIfSome]
  | some a => rw [memberIfSome, lookup_singleton, Option.map_some]

theorem exact_memberIfSome {α : Type} {write : α → Json} (h : ∀ a, Exact (write a)) (name : String)
    (x : Option α) : ∀ m ∈ memberIfSome name write x, Exact m.2 := by
  cases x with
  | none => exact List.forall_mem_nil _
  | some a => exact List.forall_mem_singleton.mpr (h a)

end Json

namespace TokenListing

/-- Every member is found under its name, and a member without a value is not there. -/
structure Shown (k : TokenListing) (j : Json) : Prop where
  kind : j.get? "kind" = some (.string k.kind)
  text : j.get? "text" = some (.string k.text)
  flags : j.get? "flags" = if k.flags = [] then none else some (.ofStrings k.flags)
  width : j.get? "width" = k.width.map .ofNat
  precision : j.get? "precision" = k.precision.map .ofNat
  arg : j.get? "arg" = k.arg.map .ofNat

theorem shown_toJson (k : TokenListing) : k.Shown k.toJson := by
  have hflags (name : String) :
      (if k.flags = [] then [] else [("flags", Json.ofStrings k.flags)]).lookup name =
        if name = "flags" then if k.flags = [] then none else some (.ofStrings k.flags)
        else none := by
    by_cases h : k.flags = []
    · simp [h]
    · rw [if_neg h, if_neg h, Json.lookup_singleton]
  refine ⟨rfl, rfl, ?_, ?_, ?_, ?_⟩ <;>
    simp [toJson, Json.get?, List.lookup_append, List.lookup_cons, hflags, Json.lookup_memberIfSome]

theorem Shown.unique {k m : TokenListing} {j : Json} (hk : k.Shown j) (hm : m.Shown j) :
    k = m := by
  have hkind := Json.string.inj (Option.some.inj (hk.kind.symm.trans hm.kind))
  have htext := Json.string.inj (Option.some.inj (hk.text.symm.trans hm.text))
  have hflags := hk.flags.symm.trans hm.flags
  have hnat := Option.map_injective Json.ofNat_injective
  have hwidth := hnat (hk.width.symm.trans hm.width)
  have hprecision := hnat (hk.precision.symm.trans hm.precision)
  have harg := hnat (hk.arg.symm.trans hm.arg)
  have hnames : k.flags = m.flags := by
    by_cases hempty : k.flags = []
    · by_cases hempty' : m.flags = []
      · exact hempty.trans hempty'.symm
      · rw [if_pos hempty, if_neg hempty'] at hflags
        exact absurd hflags.symm (Option.some_ne_none _)
    · by_cases hempty' : m.flags = []
      · rw [if_neg hempty, if_pos hempty'] at hflags
        exact absurd hflags (Option.some_ne_none _)
      · rw [if_neg hempty, if_neg hempty'] at hflags
        exact Json.ofStrings_injective (Option.some.inj hflags)
  cases k
  cases m
  rw [TokenListing.mk.injEq]
  exact ⟨hkind, htext, hnames, hwidth, hprecision, harg⟩

theorem toJson_injective : Function.Injective toJson := by
  intro k m h
  exact k.shown_toJson.unique (h ▸ m.shown_toJson)

theorem exact_toJson (k : TokenListing) : Json.Exact k.toJson := by
  have hnat (n : Nat) : Json.Exact (.ofNat n) := .integer n
  have hnumbers := Json.exact_memberIfSome hnat
  have hflags : ∀ m ∈ if k.flags = [] then [] else [("flags", Json.ofStrings k.flags)],
      Json.Exact m.2 := by
    split
    · exact List.forall_mem_nil _
    · exact List.forall_mem_singleton.mpr (Json.exact_ofStrings _)
  refine .object ?_
  simp only [List.forall_mem_append]
  refine ⟨⟨⟨⟨?_, hflags⟩, hnumbers _ _⟩, hnumbers _ _⟩, hnumbers _ _⟩
  exact List.forall_mem_cons.mpr ⟨.string _, List.forall_mem_singleton.mpr (.string _)⟩

end TokenListing

namespace Listing

theorem toJson_injective : Function.Injective toJson := by
  intro l m h
  simp only [toJson, Json.object.injEq, List.cons.injEq, Prod.mk.injEq, true_and, and_true,
    Json.array.injEq] at h
  obtain ⟨hrequired, hsize, htokens⟩ := h
  cases l
  cases m
  rw [Listing.mk.injEq]
  exact ⟨Json.ofNat_injective hrequired, Json.ofNat_injective hsize,
    TokenListing.toJson_injective.list_map htokens⟩

theorem exact_toJson (l : Listing) : Json.Exact l.toJson := by
  refine .object ?_
  simp only [List.forall_mem_cons]
  refine ⟨.integer _, .integer _, .array ?_, List.forall_mem_nil _⟩
  intro j hj
  obtain ⟨k, -, rfl⟩ := List.mem_map.mp hj
  exact k.exact_toJson

theorem text_injective : Function.Injective text := by
  intro l m h
  exact toJson_injective ((l.exact_toJson.pretty_inj m.exact_toJson).mp h)

end Listing

/-! ## Pieces as they are listed -/

theorem Verb.kind_injective : Function.Injective Verb.kind := by
  intro v w
  cases v <;> cases w <;> decide

theorem Flags.ext_has {f g : Flags} (h : ∀ flag, f.has flag = g.has flag) : f = g := by
  cases f
  cases g
  rw [Flags.mk.injEq]
  exact ⟨h .plus, h .minus, h .sharp, h .space, h .zero, h .upper⟩

/-- A number and its mark give the measure back. -/
theorem Measure.eq_of_listed {v w : Option Measure}
    (hmark : (∃ i, v = some (.indirect i)) ↔ ∃ i, w = some (.indirect i))
    (hvalue : v.map Measure.value = w.map Measure.value) : v = w := by
  rcases v with _ | (m | i) <;> rcases w with _ | (n | j) <;> simp_all [Measure.value]

namespace Directive

theorem flags_of_flagNames {d e : Directive} (h : d.flagNames = e.flagNames) :
    d.flags = e.flags := by
  refine Flags.ext_has fun flag => ?_
  have hmem : flag.name ∈ d.flagNames ↔ flag.name ∈ e.flagNames := by rw [h]
  rw [mem_flagNames, mem_flagNames] at hmem
  exact Bool.eq_iff_iff.mpr hmem

theorem eq_of_listed {d e : Directive} (hkind : d.verb.kind = e.verb.kind)
    (hnames : d.flagNames = e.flagNames)
    (hwidth : d.width.map Measure.value = e.width.map Measure.value)
    (hprecision : d.precision.map Measure.value = e.precision.map Measure.value)
    (harg : d.arg = e.arg) : d = e := by
  have hflags := flags_of_flagNames hnames
  have hwidths : d.width = e.width := by
    refine Measure.eq_of_listed ?_ hwidth
    rw [← d.width_mem_flagNames, ← e.width_mem_flagNames, hnames]
  have hprecisions : d.precision = e.precision := by
    refine Measure.eq_of_listed ?_ hprecision
    rw [← d.precision_mem_flagNames, ← e.precision_mem_flagNames, hnames]
  cases d
  cases e
  rw [Directive.mk.injEq]
  exact ⟨Verb.kind_injective hkind, hflags, hwidths, hprecisions, harg⟩

end Directive

namespace Piece

def listed : Piece → TokenListing
  | .literal s => ⟨"literal", s, [], none, none, none⟩
  | .directive c d =>
    ⟨d.verb.kind, String.singleton c, d.flagNames, d.width.map Measure.value,
      d.precision.map Measure.value, some d.arg⟩

theorem listed_injective : Function.Injective listed := by
  have hkind (v : Verb) : v.kind ≠ "literal" := by cases v <;> decide
  intro p q h
  cases p with
  | literal s =>
    cases q with
    | literal t => rw [(TokenListing.mk.inj h).2.1]
    | directive c d => exact absurd (TokenListing.mk.inj h).1.symm (hkind d.verb)
  | directive c d =>
    cases q with
    | literal t => exact absurd (TokenListing.mk.inj h).1 (hkind d.verb)
    | directive c' e =>
      obtain ⟨hverb, hletter, hnames, hwidth, hprecision, harg⟩ := TokenListing.mk.inj h
      exact congrArg₂ Piece.directive (String.singleton_inj.mp hletter)
        (Directive.eq_of_listed hverb hnames hwidth hprecision (Option.some.inj harg))

end Piece

namespace Template

theorem listToken_of_shows {t : Template} {k : Token} {p : Piece} (h : k.Shows t.text p) :
    t.listToken k = p.listed := by
  have htoken := h.token
  have hcut := h.cut
  cases p with
  | literal s =>
    rw [Piece.token] at htoken
    rw [htoken] at hcut ⊢
    simp only [listToken, Piece.listed, Token.span, Piece.text] at hcut ⊢
    rw [hcut]
  | directive c d =>
    rw [Piece.token] at htoken
    rw [htoken] at hcut ⊢
    simp only [listToken, Piece.listed, Token.span, Piece.text] at hcut ⊢
    rw [hcut]

/-- A listing has the pieces of its template in their order. -/
theorem tokens_listing_ofPieces (ps : List Piece) (n : Nat) :
    (ofPieces ps n).listing.tokens = (Piece.merge ps).map Piece.listed := by
  have hshow := tokens_show ps n
  have hlisted := hshow.imp fun _ _ hk => listToken_of_shows hk
  rw [← List.forall₂_eq_eq_eq]
  exact List.forall₂_map_left_iff.mpr (List.forall₂_map_right_iff.mpr hlisted)

theorem ext_fields {t u : Template} (text : t.text = u.text) (tokens : t.tokens = u.tokens)
    (required : t.required = u.required) (minSize : t.minSize = u.minSize) : t = u := by
  cases t
  cases u
  rw [Template.mk.injEq]
  exact ⟨text, tokens, required, minSize⟩

theorem ofPieces_of_listing {ps qs : List Piece} {m n : Nat}
    (h : (ofPieces ps m).listing = (ofPieces qs n).listing) : ofPieces ps m = ofPieces qs n := by
  have htokens := congrArg Listing.tokens h
  rw [tokens_listing_ofPieces, tokens_listing_ofPieces] at htokens
  have hmerge := Piece.listed_injective.list_map htokens
  have htext : (ofPieces ps m).text = (ofPieces qs n).text := by
    rw [text_ofPieces, text_ofPieces, hmerge]
  have hspans : (ofPieces ps m).tokens = (ofPieces qs n).tokens :=
    congrArg (Piece.layout 0) hmerge
  have hrequired : (ofPieces ps m).required = (ofPieces qs n).required :=
    congrArg Listing.required h
  have hsize : (ofPieces ps m).minSize = (ofPieces qs n).minSize := congrArg Listing.minSize h
  exact ext_fields htext hspans hrequired hsize

theorem listing_compile_inj {a b : String} :
    (compile a).listing = (compile b).listing ↔ compile a = compile b :=
  ⟨fun h => ofPieces_of_listing h, congrArg listing⟩

/-- Two formats have the same listing, or the same text of it, only if they compile to the same
template. Then no arguments tell them apart. -/
theorem listing_faithful (a b : String) :
    ((compile a).listing = (compile b).listing ↔ compile a = compile b) ∧
      ((compile a).listing.text = (compile b).listing.text ↔ compile a = compile b) ∧
      ((compile a).listing = (compile b).listing →
        ∀ args, (compile a).render args = (compile b).render args) := by
  refine ⟨listing_compile_inj, Listing.text_injective.eq_iff.trans listing_compile_inj, ?_⟩
  intro h args
  rw [listing_compile_inj.mp h]

theorem listing_faithful_percent :
    ((compile "100%%").listing = (compile "100%+%").listing ∧
      (compile "100%%").listing.text = (compile "100%+%").listing.text ∧
      (compile "100%%").render ["a"] = (compile "100%+%").render ["a"]) ∧
    (compile "%5s").listing.text ≠ (compile "%*s").listing.text := by
  obtain ⟨hlisting, htext, hrender⟩ := listing_faithful "100%%" "100%+%"
  have hsame : compile "100%%" = compile "100%+%" := by decide +kernel
  have hother : compile "%5s" ≠ compile "%*s" := by decide +kernel
  have hshown := hlisting.mpr hsame
  exact ⟨⟨hshown, htext.mpr hsame, hrender hshown ["a"]⟩,
    mt (listing_faithful "%5s" "%*s").2.1.mp hother⟩

end Template

end PercentFormat
