import PercentFormat.Output.Pool
import PercentFormat.Proofs.Output.Filling

/-!
# Rendering with pooled buffers

The idle buffers of a pool are empty, so a rendering never sees what was rendered before it.
-/

namespace PercentFormat

namespace Pool

def Clean (p : Pool) : Prop := ∀ b ∈ p.idle, b.bytes = ByteArray.empty

theorem clean_empty : Clean {} := by
  intro b hb
  simp at hb

theorem Clean.acquire {p : Pool} (h : p.Clean) :
    p.acquire.1.bytes = ByteArray.empty ∧ p.acquire.2.Clean := by
  unfold Pool.acquire
  split
  · next hi => exact ⟨rfl, by simp [Clean, hi]⟩
  · next b rest hi =>
    exact ⟨h b (by simp [hi]), fun c hc => h c (by rw [hi]; exact List.mem_cons_of_mem _ hc)⟩

theorem Clean.release {p : Pool} (h : p.Clean) (b : Buffer) : (p.release b).Clean := by
  intro c hc
  simp only [Pool.release] at hc
  split at hc
  · rcases List.mem_cons.mp hc with rfl | hc
    · split <;> rfl
    · exact h c hc
  · exact h c hc

/-- Edits on a pooled buffer leave nothing but their text. -/
theorem Clean.filled {p : Pool} (h : p.Clean) (es : List Edit) :
    (p.acquire.1.applyAll es).bytes = (Edit.allAdded es).toUTF8 := by
  rw [Buffer.bytes_applyAll, h.acquire.1, ByteArray.empty_append]

theorem Clean.collect {p : Pool} (h : p.Clean) (es : List Edit) :
    (p.collect es).1 = Edit.allAdded es ∧ (p.collect es).2.Clean :=
  ⟨Buffer.text_of_bytes (h.filled es), h.acquire.2.release _⟩

theorem Clean.deliver {p : Pool} (h : p.Clean) (es : List Edit) (sink : Sink) :
    (p.deliver es sink).2.2.Clean :=
  h.acquire.2.release _

/-- Without arguments nothing is surplus, so a template of one literal is all there is. -/
theorem render_of_asLiteral {t : Template} {s : String} (h : t.asLiteral = some s) :
    t.render [] = s := by
  unfold Template.asLiteral at h
  split at h
  · next span ht =>
    rw [Option.some.injEq] at h
    simp [Template.render_eq, Template.edits, ht, Template.tokenEdits, Show.surplus, Edit.added, h]
  · simp at h

theorem render_of_isEmpty {t : Template} (h : t.isEmpty = true) : t.render [] = "" := by
  have ht : t.tokens = [] := by simpa [Template.isEmpty] using h
  simp [Template.render_eq, Template.edits, ht, Show.surplus, Edit.added]

theorem Clean.renderToString {p : Pool} (h : p.Clean) (t : Template) (args : List String) :
    (p.renderToString t args).1 = t.render args ∧ (p.renderToString t args).2.Clean := by
  have hcollect := h.collect (t.edits args)
  rw [← Template.render_eq] at hcollect
  unfold Pool.renderToString
  split
  · next ha =>
    obtain rfl : args = [] := by simpa using ha
    split
    · next ht => exact ⟨(render_of_isEmpty ht).symm, h⟩
    · split
      · next s hs => exact ⟨(render_of_asLiteral hs).symm, h⟩
      · exact hcollect
  · exact hcollect

end Pool

end PercentFormat
