import PercentFormat.Output.Lending
import PercentFormat.Template.Compile
import PercentFormat.Proofs.Output.Delivery
import PercentFormat.Proofs.Output.Pooling

/-!
# Paths of a rendering

A rendering is the same text in a buffer that holds something, as a string from a pool and in a
sink, whatever the pool was used for before. So are arguments written one after the other.
-/

namespace PercentFormat

/-! ## Texts of arguments -/

/-- Arguments one after the other, or as a line. -/
def concatText (line : Bool) (args : List String) : String :=
  if line then String.intercalate " " args ++ "\n" else String.join args

theorem allAdded_spacedArgs (args : List String) :
    Edit.allAdded (Pool.spacedArgs args) = String.intercalate " " args := by
  induction args with
  | nil => rfl
  | cons a args ih =>
    cases args with
    | nil =>
      simp only [Pool.spacedArgs, Edit.allAdded_cons, Edit.allAdded_nil, Edit.added,
        String.append_empty, String.intercalate_singleton]
    | cons b args =>
      rw [String.intercalate_cons_cons, ← ih]
      simp only [Pool.spacedArgs, Edit.allAdded_cons, Edit.added, String.append_assoc]
      rfl

theorem allAdded_concatEdits (line : Bool) (args : List String) :
    Edit.allAdded (Pool.concatEdits line args) = concatText line args := by
  cases line with
  | true =>
    simp only [Pool.concatEdits, concatText, if_true, Edit.allAdded_append, allAdded_spacedArgs]
    rfl
  | false =>
    have htexts : Edit.added ∘ Edit.text = id := rfl
    simp [Pool.concatEdits, concatText, Edit.allAdded, htexts]

namespace Pool

/-! ## Pools in use -/

/-- The pools that come of a new one. A buffer may come back with anything in it. -/
inductive Reachable : Pool → Prop
  | new : Reachable {}
  | acquire {p : Pool} (h : Reachable p) : Reachable p.acquire.2
  | release {p : Pool} (h : Reachable p) (b : Buffer) : Reachable (p.release b)
  | renderToString {p : Pool} (h : Reachable p) (t : Template) (args : List String) :
      Reachable (p.renderToString t args).2
  | renderToSink {p : Pool} (h : Reachable p) (t : Template) (args : List String) (sink : Sink) :
      Reachable (p.renderToSink t args sink).2.2
  | concatToString {p : Pool} (h : Reachable p) (line : Bool) (args : List String) :
      Reachable (p.concatToString line args).2
  | concatToSink {p : Pool} (h : Reachable p) (line : Bool) (args : List String) (sink : Sink) :
      Reachable (p.concatToSink line args sink).2.2

/-- The branches without a buffer are the texts that a buffer would have held. -/
theorem Clean.concatToString {p : Pool} (h : p.Clean) (line : Bool) (args : List String) :
    (p.concatToString line args).1 = concatText line args ∧ (p.concatToString line args).2.Clean := by
  have hcollect := h.collect (concatEdits line args)
  rw [allAdded_concatEdits] at hcollect
  unfold Pool.concatToString
  split
  · exact ⟨rfl, h⟩
  · exact ⟨rfl, h⟩
  · next a => exact ⟨by simp [concatText, String.join_cons], h⟩
  · exact hcollect

theorem Reachable.clean {p : Pool} (h : p.Reachable) : p.Clean := by
  induction h with
  | new => exact clean_empty
  | acquire _ ih => exact ih.acquire.2
  | release _ b ih => exact ih.release b
  | renderToString _ t args ih => exact (ih.renderToString t args).2
  | renderToSink _ t args sink ih => exact ih.deliver _ sink
  | concatToString _ line args ih => exact (ih.concatToString line args).2
  | concatToSink _ line args sink ih => exact ih.deliver _ sink

end Pool

namespace Lending

theorem reachable_giveBack {l : Lending} (h : l.pool.Reachable) (name : String) :
    (l.giveBack name).pool.Reachable := by
  unfold giveBack
  split
  · exact h
  · next b _ => exact h.release b

theorem reachable_step {l : Lending} (h : l.pool.Reachable) (s : Step) :
    (l.step s).2.pool.Reachable := by
  cases s with
  | acquire name => exact reachable_giveBack h.acquire name
  | release name => exact reachable_giveBack h name
  | takeText name => exact reachable_giveBack h name
  | use name steps =>
    simp only [step]
    split <;> exact h
  | renderToString t args => exact h.renderToString t args
  | renderToSink t args sink => exact h.renderToSink t args sink

theorem reachable_run {l : Lending} (h : l.pool.Reachable) (steps : List Step) :
    (l.run steps).pool.Reachable := by
  induction steps generalizing l with
  | nil => exact h
  | cons s steps ih => exact ih (reachable_step h s)

end Lending

/-! ## Agreement -/

namespace Pool

/-- A sink was given a text, and the answer is its length. -/
def Delivers (answer : Except Fault Nat × Delivery × Pool) (s : String) : Prop :=
  answer.1 = .ok s.utf8ByteSize ∧ answer.2.1.accepted = s.toUTF8

theorem Clean.delivers {p : Pool} (h : p.Clean) (es : List Edit) {sink : Sink}
    (hs : sink.Accepting) : Delivers (p.deliver es sink) (Edit.allAdded es) := by
  obtain ⟨haccepted, hfault⟩ := hs.writeAll (p.acquire.1.applyAll es).bytes
  have hresult : (p.deliver es sink).1 = .ok (p.acquire.1.applyAll es).bytes.size := by
    simp only [Pool.deliver, Delivery.result, hfault, Buffer.size]
  rw [h.filled es] at haccepted hresult
  refine ⟨hresult, ?_⟩
  simp only [Pool.deliver, h.filled es]
  exact haccepted

/-- Whatever a buffer held and a pool was used for, each way to render a template gives the text
that it gives in a fresh buffer, and each way to write arguments gives these. -/
theorem rendering_paths_agree {p : Pool} (hp : p.Reachable) {sink : Sink} (hs : sink.Accepting)
    (t : Template) (args : List String) :
    (∀ b : Buffer, (t.renderInto args b).bytes = b.bytes ++ (t.render args).toUTF8) ∧
      (∀ (before : String) (capacity : Nat),
        (t.renderInto args ⟨before.toUTF8, capacity⟩).text = before ++ t.render args) ∧
      (p.renderToString t args).1 = t.render args ∧
      Delivers (p.renderToSink t args sink) (t.render args) ∧
      ∀ line,
        (p.concatToString line args).1 = concatText line args ∧
          Delivers (p.concatToSink line args sink) (concatText line args) := by
  have hbytes : ∀ b : Buffer,
      (t.renderInto args b).bytes = b.bytes ++ (t.render args).toUTF8 := by
    intro b
    rw [Template.bytes_renderInto, ← Template.render_eq]
  refine ⟨hbytes, ?_, (hp.clean.renderToString t args).1, ?_, ?_⟩
  · intro before capacity
    refine Buffer.text_of_bytes ?_
    rw [hbytes, toUTF8_append]
  · rw [Template.render_eq]
    exact hp.clean.delivers _ hs
  · intro line
    refine ⟨(hp.clean.concatToString line args).1, ?_⟩
    rw [← allAdded_concatEdits]
    exact hp.clean.delivers _ hs

theorem rendering_paths_agree_reused :
    let p := (Lending.run {} [.acquire "a", .use "a" [.edit (.text "old")], .release "a"]).pool
    let t := Template.compile "%s%%"
    p.Reachable ∧ (Sink.atMost 1).Accepting ∧ t.render ["é"] = "é%" ∧
      (t.renderInto ["é"] ⟨"<".toUTF8, 2⟩).text = "<" ++ "é%" ∧
      (p.renderToString t ["é"]).1 = "é%" ∧
      Delivers (p.renderToSink t ["é"] (Sink.atMost 1)) "é%" ∧
      Delivers (p.renderToSink t ["é"] Sink.everything) "é%" ∧
      (p.concatToString true ["é", "b"]).1 = "é b\n" ∧
      Delivers (p.concatToSink true ["é", "b"] (Sink.interruptedAtFirst 2)) "é b\n" := by
  intro p t
  have hp : p.Reachable := Lending.reachable_run .new _
  have hshort : (Sink.atMost 1).Accepting := Sink.accepting_atMost Nat.one_pos
  have hrender : t.render ["é"] = "é%" := by
    rw [Template.render_eq]
    decide +kernel
  have hconcat : concatText true ["é", "b"] = "é b\n" := by decide +kernel
  obtain ⟨-, htext, hstring, hsink, -⟩ := rendering_paths_agree hp hshort t ["é"]
  obtain ⟨-, -, -, hwhole, -⟩ := rendering_paths_agree hp Sink.accepting_everything t ["é"]
  obtain ⟨-, -, -, -, hline⟩ :=
    rendering_paths_agree hp (Sink.accepting_interruptedAtFirst 2) t ["é", "b"]
  rw [hrender] at hstring hsink hwhole
  obtain ⟨hjoined, hdelivered⟩ := hline true
  rw [hconcat] at hjoined hdelivered
  exact ⟨hp, hshort, hrender, hrender ▸ htext "<" 2, hstring, hsink, hwhole, hjoined, hdelivered⟩

end Pool

end PercentFormat
