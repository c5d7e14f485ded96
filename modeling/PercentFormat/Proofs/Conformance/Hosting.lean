import PercentFormat.Conformance.Host
import PercentFormat.Conformance.Failure
import PercentFormat.Proofs.Storage.FileTree

/-!
# Runs on hosts

What a computation does on a host is said of the files that the states of the host hold. A host is
reliable for some paths when writing there succeeds and what is read is what was written last;
nothing is asked of its clock and of what it does with texts that are shown.
-/

namespace PercentFormat

/-- What is stored at paths. -/
abbrev Files := String → Option ByteArray

namespace Files

/-- The files after a write. -/
def write (files : Files) (path : String) (bytes : ByteArray) : Files :=
  fun p => if p = path then some bytes else files p

@[simp] theorem write_self (files : Files) (path : String) (bytes : ByteArray) :
    files.write path bytes path = some bytes := if_pos rfl

theorem write_of_ne (files : Files) {path p : String} (h : p ≠ path) (bytes : ByteArray) :
    files.write path bytes p = files p := if_neg h

end Files

variable {σ α β : Type}

section

variable {s s' : σ} {a : α}

theorem run_bind {x : StateM σ α} (f : α → StateM σ β) (h : x.run s = (a, s')) :
    (x >>= f).run s = (f a).run s' := by
  rw [StateT.run_bind, h]
  rfl

theorem run_bind_ok {x : ExceptT Failure (StateM σ) α} (f : α → ExceptT Failure (StateM σ) β)
    (h : x.run.run s = (.ok a, s')) : (x >>= f).run.run s = (f a).run.run s' := by
  rw [ExceptT.run_bind, run_bind _ h]

theorem run_lift_ok {x : StateM σ α} (h : x.run s = (a, s')) :
    (ExceptT.lift x : ExceptT Failure (StateM σ) α).run.run s = (.ok a, s') := by
  rw [ExceptT.run_lift, StateT.run_map, h]
  rfl

end

/-- From every state that holds some files, the computation comes to a result and to a state that
holds others, as the postcondition says. -/
def Runs (holds : σ → Files → Prop) (files : Files) (x : StateM σ α)
    (post : α → Files → Prop) : Prop :=
  ∀ s, holds s files → ∃ a s' files', x.run s = (a, s') ∧ holds s' files' ∧ post a files'

/-- The computation does not fail. -/
def Succeeds (holds : σ → Files → Prop) (files : Files) (x : ExceptT Failure (StateM σ) α)
    (post : α → Files → Prop) : Prop :=
  Runs holds files x.run fun r files' => ∃ a, r = .ok a ∧ post a files'

variable {holds : σ → Files → Prop} {files : Files}

namespace Runs

variable {x : StateM σ α} {f : α → StateM σ β} {mid : α → Files → Prop} {post : β → Files → Prop}

theorem pure {a : β} (h : post a files) : Runs holds files (Pure.pure a) post :=
  fun s hs => ⟨a, s, files, rfl, hs, h⟩

theorem bind (hx : Runs holds files x mid)
    (hf : ∀ a files', mid a files' → Runs holds files' (f a) post) :
    Runs holds files (x >>= f) post := by
  intro s hs
  obtain ⟨a, s', files', hrun, hs', hmid⟩ := hx s hs
  obtain ⟨b, s'', files'', hrun', hs'', hpost⟩ := hf a files' hmid s' hs'
  exact ⟨b, s'', files'', (run_bind f hrun).trans hrun', hs'', hpost⟩

theorem mono {post' : α → Files → Prop} (hx : Runs holds files x mid)
    (h : ∀ a files', mid a files' → post' a files') : Runs holds files x post' := by
  intro s hs
  obtain ⟨a, s', files', hrun, hs', hmid⟩ := hx s hs
  exact ⟨a, s', files', hrun, hs', h a files' hmid⟩

/-- Steps through a list. What holds before a step and the rest of the list is kept. -/
theorem foldlM (inv : List α → β → Prop) {step : β → α → StateM σ β} {b : β} {as : List α}
    (hstep : ∀ b a rest, inv (a :: rest) b → Runs holds files (step b a) fun b' files' =>
      files' = files ∧ inv rest b') (h : inv as b) :
    Runs holds files (as.foldlM step b) fun b' files' => files' = files ∧ inv [] b' := by
  induction as generalizing b with
  | nil => exact .pure ⟨rfl, h⟩
  | cons a as ih =>
    rw [List.foldlM_cons]
    refine (hstep b a as h).bind ?_
    rintro b' files' ⟨rfl, h'⟩
    exact ih h'

end Runs

namespace Succeeds

variable {x : ExceptT Failure (StateM σ) α} {f : α → ExceptT Failure (StateM σ) β}
  {mid : α → Files → Prop} {post : β → Files → Prop}

theorem pure {a : β} (h : post a files) : Succeeds holds files (Pure.pure a) post :=
  Runs.pure ⟨a, rfl, h⟩

theorem lift {x : StateM σ α} (hx : Runs holds files x mid) :
    Succeeds holds files (ExceptT.lift x) mid := by
  rw [Succeeds, ExceptT.run_lift, map_eq_pure_bind]
  refine Runs.bind hx ?_
  intro a files' hmid
  exact .pure ⟨a, rfl, hmid⟩

/-- After a success a computation goes on, and may fail then. -/
theorem andThen {post : Except Failure β → Files → Prop} (hx : Succeeds holds files x mid)
    (hf : ∀ a files', mid a files' → Runs holds files' (f a).run post) :
    Runs holds files (x >>= f).run post := by
  rw [ExceptT.run_bind]
  refine Runs.bind hx ?_
  rintro _ files' ⟨a, rfl, hmid⟩
  exact hf a files' hmid

theorem bind (hx : Succeeds holds files x mid)
    (hf : ∀ a files', mid a files' → Succeeds holds files' (f a) post) :
    Succeeds holds files (x >>= f) post :=
  hx.andThen hf

/-- Nothing is caught. -/
theorem tryCatch {handler : Failure → ExceptT Failure (StateM σ) α}
    (hx : Succeeds holds files x mid) :
    Succeeds holds files (MonadExcept.tryCatch x handler) mid := by
  rw [Succeeds, ExceptT.run_tryCatch]
  refine Runs.bind hx ?_
  rintro _ files' ⟨a, rfl, hmid⟩
  exact .pure ⟨a, rfl, hmid⟩

end Succeeds

/-- All operations on the paths succeed. -/
structure Host.Reliable (h : Host (StateM σ)) (holds : σ → Files → Prop)
    (paths : List String) : Prop where
  write : ∀ files, ∀ path ∈ paths, ∀ bytes, Runs holds files (h.write path bytes) fun r files' =>
    r = .ok () ∧ files' = files.write path bytes
  read : ∀ files, ∀ path ∈ paths, ∀ bytes, files path = some bytes →
    Runs holds files (h.read path) fun r files' => r = .ok bytes ∧ files' = files
  notify : ∀ files line, Runs holds files (h.notify line) fun _ files' => files' = files
  now : ∀ files, Runs holds files h.now fun _ files' => files' = files
  timed : ∀ files {α : Type} (f : Unit → α), Runs holds files (h.timed f) fun r files' =>
    r.1 = f () ∧ files' = files

/-! ## The host of a state -/

/-- The paths lead to different places, with the files there. -/
def Memory.Holds (paths : List String) (s : Memory) (files : Files) : Prop :=
  ∃ way : String → List String, (∀ p ∈ paths, s.files.Finds p (way p) (files p)) ∧
    ∀ p ∈ paths, ∀ q ∈ paths, way p = way q → p = q

theorem Memory.Holds.write {paths : List String} {s : Memory} {files : Files}
    (h : s.Holds paths files) {path : String} (hpath : path ∈ paths) (bytes : ByteArray) :
    ∃ tree, s.files.write path bytes = .ok tree ∧
      Memory.Holds paths { s with files := tree } (files.write path bytes) := by
  obtain ⟨way, hfinds, hapart⟩ := h
  have hfound := hfinds path hpath
  refine ⟨_, hfound.write bytes, way, ?_, hapart⟩
  intro p hp
  have hput := (hfinds p hp).put hfound bytes
  by_cases heq : p = path
  · subst heq
    rw [if_pos rfl] at hput
    rwa [Files.write_self]
  · rw [if_neg fun hway => heq (hapart p hp path hpath hway)] at hput
    rwa [Files.write_of_ne _ heq]

theorem Host.reliable_memory (time : String) (elapsed : UInt64) (paths : List String) :
    (Host.memory time elapsed).Reliable (Memory.Holds paths) paths := by
  refine ⟨?_, ?_, ?_, ?_, ?_⟩
  · intro files path hpath bytes s hs
    obtain ⟨tree, hwrite, hholds⟩ := hs.write hpath bytes
    refine ⟨.ok (), { s with files := tree }, _, ?_, hholds, rfl, rfl⟩
    refine (run_bind _ rfl).trans ?_
    rw [hwrite]
    rfl
  · intro files path hpath bytes hb s hs
    obtain ⟨way, hfinds, -⟩ := id hs
    have hfound := hfinds path hpath
    rw [hb] at hfound
    refine ⟨.ok bytes, s, files, ?_, hs, rfl, rfl⟩
    exact congrArg (fun r => (r, s)) hfound.read
  · intro files line s hs
    exact ⟨(), _, files, rfl, hs, rfl⟩
  · intro files s hs
    exact ⟨time, s, files, rfl, hs, rfl⟩
  · intro files α f s hs
    exact ⟨(f (), elapsed), s, files, rfl, hs, rfl, rfl⟩

end PercentFormat
