import PercentFormat.Proofs.Output.Filling
import PercentFormat.Proofs.Template.Directives
import PercentFormat.Proofs.Template.Tokens
import PercentFormat.Template.Listing

/-!
# Compiled templates are well formed

Renderings rely on how tokens lie in the text of a template and on what their directives may ask
for. Both hold of the template of every format, whether the format is right or wrong.
-/

namespace PercentFormat

structure Template.WellFormed (t : Template) : Prop where
  tiled : Span.Tile 0 (t.tokens.map Token.span) t.text.utf8ByteSize
  boundary : ∀ k ∈ t.tokens, (⟨k.span.start⟩ : String.Pos.Raw).IsValid t.text ∧
    (⟨k.span.stop⟩ : String.Pos.Raw).IsValid t.text
  nonempty : ∀ k ∈ t.tokens, k.isLiteral = true → t.valueOf k ≠ ""
  apart : t.tokens.IsChain fun j k => ¬ (j.isLiteral = true ∧ k.isLiteral = true)
  directive : ∀ span d, .directive span d ∈ t.tokens →
    ∃ c, span.cut t.text = String.singleton c ∧ d.WellFormed c t.required
  minSize : t.minSize =
    ((t.tokens.filter Token.isLiteral).map fun k => (t.valueOf k).utf8ByteSize).sum

/-- A measure as it is listed: a mark tells an argument index from a number. -/
def Measure.Listed (required : Nat) (marked : Prop) (value : Option Nat) : Prop :=
  (marked → ∃ i ∈ value, i < required) ∧ (¬ marked → ∀ n ∈ value, n ≤ maxNumber)

/-- A token as it is listed among `required` arguments. -/
structure TokenListing.WellFormed (required : Nat) (k : TokenListing) : Prop where
  literal : k.kind = "literal" → k.flags = [] ∧ k.width = none ∧ k.precision = none
  padding : ¬ ("MINUS" ∈ k.flags ∧ "ZERO" ∈ k.flags)
  width : Measure.Listed required ("INDIRECT_WIDTH" ∈ k.flags) k.width
  precision : Measure.Listed required ("INDIRECT_PRECISION" ∈ k.flags) k.precision

/-! ## Templates of pieces -/

namespace Template

theorem text_ofPieces (ps : List Piece) (n : Nat) :
    (ofPieces ps n).text = Piece.textOf (Piece.merge ps) :=
  (Piece.textOf_merge ps).symm

theorem tokens_show (ps : List Piece) (n : Nat) :
    List.Forall₂ (Token.Shows (ofPieces ps n).text) (ofPieces ps n).tokens (Piece.merge ps) := by
  have h := Piece.layout_shows "" (Piece.merge ps)
  rwa [String.empty_append, ← text_ofPieces ps n] at h

/-- Pieces with well-formed directives make a well-formed template. -/
theorem wellFormed_ofPieces {ps : List Piece} {n : Nat} (h : ∀ p ∈ ps, p.WellFormed n) :
    (ofPieces ps n).WellFormed := by
  have hmerged := Piece.merged_merge ps
  have hshow := tokens_show ps n
  refine ⟨?tiled, ?boundary, ?nonempty, ?apart, ?directive, ?minSize⟩
  case tiled =>
    have ht := Piece.layout_tile 0 (Piece.merge ps)
    rwa [Nat.zero_add, ← text_ofPieces ps n] at ht
  case boundary =>
    intro k hk
    obtain ⟨p, -, hp⟩ := Token.exists_shown hshow hk
    exact ⟨hp.start, hp.stop⟩
  case nonempty =>
    intro k hk hl
    obtain ⟨p, hp, hs⟩ := Token.exists_shown hshow hk
    rw [hs.isLiteral_eq] at hl
    rw [valueOf, hs.cut]
    cases p with
    | literal s =>
      rintro rfl
      exact hmerged.nonempty hp
    | directive c d => simp at hl
  case apart =>
    have ha := hmerged.apart
    rw [← List.isChain_map (R := fun a b => ¬ (a = true ∧ b = true)) Piece.isLiteral,
      ← Piece.isLiteral_layout 0, List.isChain_map] at ha
    exact ha
  case directive =>
    intro span d hk
    obtain ⟨p, hp, hs⟩ := Token.exists_shown hshow hk
    obtain ⟨c, rfl, hc⟩ := hs.exists_letter
    exact ⟨c, hc, h _ (Piece.directive_mem_merge.mp hp)⟩
  case minSize =>
    have hl := congrArg (List.map String.utf8ByteSize) (Token.literals_of_shows hshow)
    rw [List.map_map, List.map_map] at hl
    have hb := Piece.literalBytes_eq_sum (Piece.merge ps)
    rw [Piece.literalBytes_merge] at hb
    exact hb.trans (congrArg List.sum hl.symm)

theorem wellFormed_compile (format : String) : (compile format).WellFormed := by
  have h := DirectiveReader.standard_sound.pieces {} format.toList
  exact wellFormed_ofPieces h.2

/-! ## Listings -/

end Template

theorem Flags.mem_names {f : Flags} {name : String} :
    name ∈ f.toList.map Flag.name ↔ ∃ flag, f.has flag = true ∧ flag.name = name := by
  have hall (flag : Flag) : flag ∈ [.plus, .minus, .sharp, .space, .zero, .upper] := by
    cases flag <;> simp
  simp only [toList, List.mem_map, List.mem_filter, hall, true_and]

theorem Flag.name_ne (flag : Flag) :
    flag.name ≠ "INDIRECT_WIDTH" ∧ flag.name ≠ "INDIRECT_PRECISION" := by
  cases flag <;> decide

theorem Flag.name_inj {a b : Flag} : a.name = b.name ↔ a = b := by
  cases a <;> cases b <;> decide

theorem Measure.mem_mark {name mark : String} {w : Option Measure} :
    name ∈ Measure.mark mark w ↔ name = mark ∧ ∃ i, w = some (.indirect i) := by
  rcases w with _ | w
  · simp [Measure.mark]
  · cases w <;> simp [Measure.mark]

theorem Measure.listed_of_within {named : Nat} {w : Option Measure} (h : ∀ m ∈ w, m.Within named) :
    Listed named (∃ i, w = some (.indirect i)) (w.map Measure.value) := by
  rcases w with _ | w
  · exact ⟨by simp, by simp⟩
  · have hw := h w rfl
    cases w with
    | fixed n =>
      have hn : n ≤ maxNumber := hw
      exact ⟨by simp, by simpa [Measure.value] using hn⟩
    | indirect i =>
      have hi : i < named := hw
      exact ⟨by simpa [Measure.value] using hi, by simp⟩

namespace Directive

theorem mem_flagNames (d : Directive) (flag : Flag) :
    flag.name ∈ d.flagNames ↔ d.flags.has flag = true := by
  have hne := flag.name_ne
  simp [flagNames, Flags.mem_names, Measure.mem_mark, Flag.name_inj, hne.1, hne.2]

theorem width_mem_flagNames (d : Directive) :
    "INDIRECT_WIDTH" ∈ d.flagNames ↔ ∃ i, d.width = some (.indirect i) := by
  have hne (flag : Flag) := flag.name_ne.1
  simp [flagNames, Flags.mem_names, Measure.mem_mark, hne]

theorem precision_mem_flagNames (d : Directive) :
    "INDIRECT_PRECISION" ∈ d.flagNames ↔ ∃ i, d.precision = some (.indirect i) := by
  have hne (flag : Flag) := flag.name_ne.2
  simp [flagNames, Flags.mem_names, Measure.mem_mark, hne]

end Directive

theorem Template.WellFormed.listing {t : Template} (h : t.WellFormed) :
    ∀ k ∈ t.listing.tokens, k.WellFormed t.required := by
  intro k hk
  obtain ⟨token, htoken, rfl⟩ := List.mem_map.mp hk
  cases token with
  | literal span =>
    exact ⟨fun _ => ⟨rfl, rfl, rfl⟩, by simp [listToken], by simp [listToken, Measure.Listed],
      by simp [listToken, Measure.Listed]⟩
  | directive span d =>
    obtain ⟨c, -, hd⟩ := h.directive span d htoken
    have hkind : d.verb.kind ≠ "literal" := by cases d.verb <;> decide
    have hminus := d.mem_flagNames .minus
    have hzero := d.mem_flagNames .zero
    simp only [Flag.name, Flags.has] at hminus hzero
    refine ⟨fun hl => absurd hl hkind, ?_, ?_, ?_⟩
    · simp only [listToken, hminus, hzero]
      exact hd.padding
    · simp only [listToken, d.width_mem_flagNames]
      exact Measure.listed_of_within hd.width
    · simp only [listToken, d.precision_mem_flagNames]
      exact Measure.listed_of_within hd.precision

namespace Template

/-! ## Renderings -/

/-- Whatever directives add, the literals are there. -/
theorem literals_le_tokens (t : Template) (args : List String) (ks : List Token) :
    ((ks.filter Token.isLiteral).map fun k => (t.valueOf k).utf8ByteSize).sum ≤
      (Edit.allAdded (ks.flatMap (t.tokenEdits args))).utf8ByteSize := by
  induction ks with
  | nil => simp
  | cons k ks ih =>
    rw [List.flatMap_cons, Edit.allAdded_append, String.utf8ByteSize_append]
    cases k with
    | literal span =>
      have hk : (Edit.allAdded (t.tokenEdits args (.literal span))).utf8ByteSize =
          (t.valueOf (.literal span)).utf8ByteSize := by
        simp [tokenEdits, Edit.added, valueOf, Token.span]
      rw [List.filter_cons_of_pos rfl, List.map_cons, List.sum_cons, hk]
      omega
    | directive span d =>
      rw [List.filter_cons_of_neg (by simp [Token.isLiteral])]
      omega

theorem WellFormed.minSize_le {t : Template} (h : t.WellFormed) (args : List String) :
    t.minSize ≤ (Edit.allAdded (t.edits args)).utf8ByteSize := by
  have ht := literals_le_tokens t args t.tokens
  rw [← h.minSize] at ht
  rw [edits, List.cons_append, Edit.allAdded_cons, Edit.allAdded_append,
    String.utf8ByteSize_append, String.utf8ByteSize_append]
  omega

/-- The invariant of compiled formats, whatever the format, and the least size of what they
render to. -/
theorem compile_invariant (format : String) :
    (compile format).WellFormed ∧
      (∀ k ∈ (compile format).listing.tokens, k.WellFormed (compile format).required) ∧
      ∀ args, (compile format).minSize ≤ ((compile format).render args).utf8ByteSize ∧
        ∀ b : Buffer, b.size + (compile format).minSize ≤
          ((compile format).renderInto args b).size := by
  have h := wellFormed_compile format
  refine ⟨h, h.listing, fun args => ?_⟩
  have hsize := h.minSize_le args
  refine ⟨(render_eq _ args).symm ▸ hsize, fun b => ?_⟩
  rw [Buffer.size, Buffer.size, bytes_renderInto, ByteArray.size_append]
  exact Nat.add_le_add_left hsize _

end Template

end PercentFormat
