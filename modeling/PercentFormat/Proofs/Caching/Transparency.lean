import PercentFormat.Formatter
import PercentFormat.Proofs.Caching.Outcome
import PercentFormat.Proofs.Output.Pooling

/-!
# The cache cannot be seen

Every cached template is the one that its format compiles to. So a formatter answers as if it
compiled each format anew, whatever its threshold is and was.
-/

namespace PercentFormat

/-- Whoever else caches templates compiles them the same way. -/
def Compiler.Faithful (c : Compiler) : Prop :=
  ∀ n f t, c.rival n f = some t → t = c.compile f

theorem Compiler.faithful_standard : Compiler.standard.Faithful := by
  intro n f t h
  simp [Compiler.standard] at h

theorem Compiler.faithful_overtaken : Compiler.overtaken.Faithful := by
  intro n f t h
  exact (Option.some.inj h).symm

/-- Every template is cached under the format that it was compiled from. -/
def Cache.Coherent (compile : String → Template) (c : Cache Compiled) : Prop :=
  ∀ f v, c.get? f = some v → v.template = compile f

namespace Cache.Coherent

variable {compile : String → Template} {c : Cache Compiled}

theorem empty : Coherent compile {} := by
  intro f v h
  simp at h

theorem insert (h : Coherent compile c) {k : String} {w : Compiled}
    (hw : w.template = compile k) : Coherent compile (c.insert k w).2 := by
  intro f v hv
  rw [get?_insert] at hv
  split at hv
  · next hf =>
    subst hf
    cases hk : c.get? f with
    | none =>
      rw [hk, Option.getD_none, Option.some.injEq] at hv
      exact hv ▸ hw
    | some u =>
      rw [hk, Option.getD_some, Option.some.injEq] at hv
      exact hv ▸ h f u hk
  · exact h f v hv

end Cache.Coherent

namespace Registry

def Coherent (r : Registry) : Prop := r.cache.Coherent r.compiler.compile

variable {r : Registry}

theorem Coherent.compiling (h : r.Coherent) (hc : r.compiler.Faithful) (f : String) :
    (r.compiling f).2.cache.Coherent r.compiler.compile := by
  rw [compiling_cache]
  split
  · next t ht => exact Cache.Coherent.insert h (hc _ f t ht)
  · exact h

namespace Outcome

variable {f : String} {c : Compiled} {s : Registry}

/-- Hit or miss, promoted or not, a lookup gives what the compiler gives. -/
theorem template (o : Outcome r f c s) (h : r.Coherent) :
    c.template = r.compiler.compile f := by
  have hmiss := compiling_template r f
  cases o with
  | hit cached => exact h f c cached
  | passed => exact hmiss
  | counted => exact hmiss
  | promoted => exact hmiss
  | always => exact hmiss

theorem coherent (o : Outcome r f c s) (h : r.Coherent) (hc : r.compiler.Faithful) :
    s.Coherent := by
  have hbase := h.compiling hc f
  have hnew := compiling_template r f
  rw [Coherent, o.compiler]
  cases o with
  | hit => exact h
  | passed => exact hbase
  | counted => exact hbase
  | promoted => rw [promote_cache]; exact hbase.insert hnew
  | always => rw [promote_cache]; exact hbase.insert hnew

end Outcome

end Registry

namespace Formatter

/-- A formatter before its first call. -/
def fresh (c : Compiler) (t : Threshold) : Formatter :=
  { registry := { compiler := c, threshold := t } }

/-! ## Answers -/

inductive Answer
  | text (s : String)
  | error (e : FormattedError)
  | delivered (result : Except Fault Nat) (d : Delivery)
  | template (t : Template)

/-- What a call answers; setting a threshold and purging answer nothing. -/
def answer? (f : Formatter) : Call → Option Answer
  | .sprintf format args => some (.text (f.sprintf format args).1)
  | .errorf format args => some (.error (f.errorf format args).1)
  | .fprintf format args sink =>
    some (.delivered (f.fprintf format args sink).1 (f.fprintf format args sink).2.1)
  | .lookup format => some (.template (f.lookup format).1)
  | .setThreshold _ => none
  | .purge => none

def answers (f : Formatter) : List Call → List Answer
  | [] => []
  | call :: calls => (f.answer? call).toList ++ (f.apply call).answers calls

def Call.isQuiet : Call → Bool
  | .setThreshold _ => true
  | .purge => true
  | _ => false

/-! ## Without a cache -/

/-- The answer to a call when each format is compiled anew, and the pool behind it. -/
def direct (compile : String → Template) (p : Pool) : Call → Option Answer × Pool
  | .sprintf format args =>
    let (s, p) := p.renderToString (compile format) args
    (some (.text s), p)
  | .errorf format args =>
    let (s, p) := p.renderToString (compile format) args
    (some (.error ⟨s⟩), p)
  | .fprintf format args sink =>
    let (result, d, p) := p.renderToSink (compile format) args sink
    (some (.delivered result d), p)
  | .lookup format => (some (.template (compile format)), p)
  | .setThreshold _ => (none, p)
  | .purge => (none, p)

def directAnswers (compile : String → Template) (p : Pool) : List Call → List Answer
  | [] => []
  | call :: calls =>
    (direct compile p call).1.toList ++ directAnswers compile (direct compile p call).2 calls

theorem directAnswers_filter (compile : String → Template) (p : Pool) (calls : List Call) :
    directAnswers compile p (calls.filter fun call => !call.isQuiet) =
      directAnswers compile p calls := by
  induction calls generalizing p with
  | nil => rfl
  | cons call calls ih =>
    cases call with
    | setThreshold t => exact ih p
    | purge => exact ih p
    | _ => exact congrArg ((direct compile p _).1.toList ++ ·) (ih _)

theorem clean_direct (compile : String → Template) {p : Pool} (h : p.Clean) (call : Call) :
    (direct compile p call).2.Clean := by
  cases call with
  | sprintf format args => exact (h.renderToString (compile format) args).2
  | errorf format args => exact (h.renderToString (compile format) args).2
  | fprintf format args sink => exact h.deliver _ sink
  | lookup format => exact h
  | setThreshold t => exact h
  | purge => exact h

/-! ## Runs -/

/-- What every call keeps: the compiler, a coherent cache and a clean pool. -/
structure Sound (c : Compiler) (f : Formatter) : Prop where
  compiler : f.registry.compiler = c
  coherent : f.registry.Coherent
  clean : f.pool.Clean

theorem sound_fresh (c : Compiler) (t : Threshold) : Sound c (fresh c t) :=
  ⟨rfl, Cache.Coherent.empty, Pool.clean_empty⟩

section

variable {c : Compiler} {f : Formatter}

theorem Sound.lookup_eq (h : f.Sound c) (format : String) :
    (f.lookup format).1 = c.compile format := by
  have ht := (f.registry.lookup_outcome format).template h.coherent
  rwa [h.compiler] at ht

theorem Sound.lookup (h : f.Sound c) (hc : c.Faithful) (format : String) :
    Sound c (f.lookup format).2 := by
  have ho := f.registry.lookup_outcome format
  refine ⟨ho.compiler.trans h.compiler, ho.coherent h.coherent ?_, h.clean⟩
  rw [h.compiler]
  exact hc

/-- A call is answered as without a cache, and leaves the pool as it would be then. -/
theorem Sound.answer (h : f.Sound c) (call : Call) :
    f.answer? call = (direct c.compile f.pool call).1 ∧
      (f.apply call).pool = (direct c.compile f.pool call).2 := by
  cases call with
  | sprintf format args =>
    have ht := h.lookup_eq format
    simp only [answer?, apply, sprintf, sprintfCompiled, ht]
    exact ⟨rfl, rfl⟩
  | errorf format args =>
    have ht := h.lookup_eq format
    simp only [answer?, apply, errorf, sprintf, sprintfCompiled, ht]
    exact ⟨rfl, rfl⟩
  | fprintf format args sink =>
    have ht := h.lookup_eq format
    simp only [answer?, apply, fprintf, writeCompiled, ht]
    exact ⟨rfl, rfl⟩
  | lookup format => exact ⟨congrArg (fun t => some (Answer.template t)) (h.lookup_eq format), rfl⟩
  | setThreshold t => exact ⟨rfl, rfl⟩
  | purge => exact ⟨rfl, rfl⟩

theorem Sound.apply (h : f.Sound c) (hc : c.Faithful) (call : Call) : Sound c (f.apply call) := by
  have hclean : (f.apply call).pool.Clean := by
    rw [(h.answer call).2]
    exact clean_direct c.compile h.clean call
  cases call with
  | sprintf format args =>
    have hl := h.lookup hc format
    exact ⟨hl.compiler, hl.coherent, hclean⟩
  | errorf format args =>
    have hl := h.lookup hc format
    exact ⟨hl.compiler, hl.coherent, hclean⟩
  | fprintf format args sink =>
    have hl := h.lookup hc format
    exact ⟨hl.compiler, hl.coherent, hclean⟩
  | lookup format => exact h.lookup hc format
  | setThreshold t => exact ⟨h.compiler, h.coherent, hclean⟩
  | purge => exact ⟨h.compiler, Cache.Coherent.empty, hclean⟩

theorem Sound.run (h : f.Sound c) (hc : c.Faithful) (calls : List Call) :
    Sound c (f.run calls) := by
  induction calls generalizing f with
  | nil => exact h
  | cons call calls ih => exact ih (h.apply hc call)

theorem Sound.answers (h : f.Sound c) (hc : c.Faithful) (calls : List Call) :
    f.answers calls = directAnswers c.compile f.pool calls := by
  induction calls generalizing f with
  | nil => rfl
  | cons call calls ih =>
    obtain ⟨ha, hp⟩ := h.answer call
    rw [Formatter.answers, directAnswers, ha, ih (h.apply hc call), hp]

theorem Sound.sprintf (h : f.Sound c) (format : String) (args : List String) :
    (f.sprintf format args).1 = (c.compile format).render args := by
  have ht := h.lookup_eq format
  simp only [Formatter.sprintf, sprintfCompiled, ht]
  exact (h.clean.renderToString (c.compile format) args).1

theorem Sound.sprintfCompiled (h : f.Sound c) (t : Template) (args : List String) :
    (f.sprintfCompiled t args).1 = t.render args :=
  (h.clean.renderToString t args).1

end

/-- After any calls a lookup gives what the compiler gives, and formatting shows what rendering
that template shows, in this formatter and in any other. The same formatting calls are answered
alike under all thresholds, changes of the threshold and purges. -/
theorem cache_invisible (c : Compiler) (hc : c.Faithful) (t : Threshold) (calls : List Call) :
    (∀ format, (((fresh c t).run calls).lookup format).1 = c.compile format) ∧
      (∀ format args t' calls',
        (((fresh c t).run calls).sprintf format args).1 =
          (((fresh c t').run calls').sprintfCompiled (c.compile format) args).1) ∧
      ∀ t' calls',
        calls'.filter (fun call => !call.isQuiet) = calls.filter (fun call => !call.isQuiet) →
          (fresh c t').answers calls' = (fresh c t).answers calls := by
  have hs (t : Threshold) (calls : List Call) : Sound c ((fresh c t).run calls) :=
    (sound_fresh c t).run hc calls
  refine ⟨fun format => (hs t calls).lookup_eq format, ?_, ?_⟩
  · intro format args t' calls'
    rw [(hs t calls).sprintf, (hs t' calls').sprintfCompiled]
  · intro t' calls' hcalls
    rw [(sound_fresh c t').answers hc, (sound_fresh c t).answers hc,
      ← directAnswers_filter c.compile _ calls', hcalls, directAnswers_filter]
    rfl

theorem cache_invisible_overtaken :
    Compiler.overtaken.Faithful ∧
      (((fresh .overtaken .repetitions).run
        [.sprintf "%s" ["a"], .setThreshold .always, .lookup "%s"]).lookup "%s").1 =
          Template.compile "%s" ∧
      (((fresh .overtaken .repetitions).run
        [.sprintf "%s" ["a"], .setThreshold .always, .lookup "%s"]).sprintf "%s" ["b"]).1 =
          ((fresh .overtaken .disabled).sprintfCompiled (Template.compile "%s") ["b"]).1 ∧
      (fresh .overtaken .disabled).answers [.sprintf "%s" ["a"], .purge, .lookup "%s"] =
        (fresh .overtaken .repetitions).answers
          [.sprintf "%s" ["a"], .setThreshold .always, .lookup "%s"] := by
  obtain ⟨hlookup, hsprintf, hanswers⟩ := cache_invisible .overtaken Compiler.faithful_overtaken
    .repetitions [.sprintf "%s" ["a"], .setThreshold .always, .lookup "%s"]
  refine ⟨Compiler.faithful_overtaken, hlookup "%s", hsprintf "%s" ["b"] .disabled [], ?_⟩
  exact hanswers .disabled [.sprintf "%s" ["a"], .purge, .lookup "%s"] rfl

end Formatter

end PercentFormat
