import PercentFormat.Proofs.Associations
import PercentFormat.Storage.FileTree

/-!
# Writing into file trees

A file that was written is found where it was written, and paths that lead elsewhere lead where they
led before.
-/

namespace PercentFormat.FileTree

/-- What is at the end of a path that leads to no directory. -/
def Place.ofFile? : Option ByteArray → Place
  | some bytes => .taken (.file bytes)
  | none => .free

variable {t : FileTree} {way u : List String}

theorem node?_put (hway : way ≠ []) (node : Node) :
    (t.put way node).node? u = if u = way then some node else t.node? u := by
  have hfound : t.node? way = t.nodes.lookup way := if_neg hway
  by_cases hu : u = []
  · have hne : u ≠ way := fun h => hway (h ▸ hu)
    rw [node?, node?, if_pos hu, if_pos hu, if_neg hne]
  · rw [node?, node?, if_neg hu, if_neg hu, put, hfound]
    by_cases hsome : (t.nodes.lookup way).isSome = true
    · obtain ⟨x, hx⟩ := Option.isSome_iff_exists.mp hsome
      rw [if_pos hsome, lookup_replace]
      by_cases heq : u = way
      · simp [heq, hx]
      · simp [heq]
    · rw [Option.not_isSome_iff_eq_none] at hsome
      rw [hsome, if_neg (by simp), List.lookup_append, lookup_entry, List.lookup_nil]
      by_cases heq : u = way
      · simp [heq, hsome]
      · simp [heq]

/-! ## Ways to files -/

/-- Parts of a path lead from a directory to a file, or to a name that is free. -/
inductive Leads (t : FileTree) : List String → List String → List String → Option ByteArray → Prop
  | stay {way rest u : List String} {name : String} {content : Option ByteArray}
      (hname : name = "" ∨ name = ".") (behind : Leads t way rest u content) :
      Leads t way (name :: rest) u content
  | up {way rest u : List String} {content : Option ByteArray}
      (behind : Leads t way.dropLast rest u content) : Leads t way (".." :: rest) u content
  | down {way rest u : List String} {name : String} {content : Option ByteArray}
      (hname : ¬(name = "" ∨ name = ".")) (hup : name ≠ "..")
      (hlong : ¬ maxName < name.utf8ByteSize)
      (hnode : t.node? (way ++ [name]) = some .directory)
      (behind : Leads t (way ++ [name]) rest u content) : Leads t way (name :: rest) u content
  | last {way : List String} {name : String} {content : Option ByteArray}
      (hname : ¬(name = "" ∨ name = ".")) (hup : name ≠ "..")
      (hlong : ¬ maxName < name.utf8ByteSize)
      (hnode : t.node? (way ++ [name]) = content.map .file) :
      Leads t way [name] (way ++ [name]) content

theorem Leads.follow {start parts : List String} {content : Option ByteArray}
    (h : Leads t start parts u content) :
    t.follow start parts = .ok (u, .ofFile? content) := by
  induction h with
  | stay hname behind ih => rw [FileTree.follow, if_pos hname, ih]
  | up behind ih => rw [FileTree.follow, if_neg (by decide), if_pos rfl, ih]
  | down hname hup hlong hnode behind ih =>
    simp only [FileTree.follow, hname, hup, hlong, hnode, if_false, ih]
  | @last way name content hname hup hlong hnode =>
    cases content <;> simp_all [FileTree.follow, Place.ofFile?]

theorem leads_of_follow {start parts : List String} {content : Option ByteArray}
    (h : t.follow start parts = .ok (u, .ofFile? content)) : Leads t start parts u content := by
  induction start, parts using follow.induct t with
  | case1 way => cases content <;> simp [follow, Place.ofFile?] at h
  | case2 way name rest hname ih =>
    rw [follow, if_pos hname] at h
    exact .stay hname (ih h)
  | case3 way rest hname ih =>
    rw [follow, if_neg hname, if_pos rfl] at h
    exact .up (ih h)
  | case4 way name rest hname hup hlong =>
    rw [follow, if_neg hname, if_neg hup, if_pos hlong] at h
    cases h
  | case5 way name rest hname hup hlong hnode ih =>
    simp only [follow, hname, hup, hlong, hnode, if_false] at h
    exact .down hname hup hlong hnode (ih h)
  | case6 way name hname hup hlong bytes hnode =>
    simp only [follow, hname, hup, hlong, hnode, if_false, if_true, Except.ok.injEq,
      Prod.mk.injEq] at h
    obtain ⟨rfl, hcontent⟩ := h
    refine .last hname hup hlong ?_
    cases content <;> simp_all [Place.ofFile?]
  | case7 way name rest hname hup hlong bytes hnode hrest =>
    simp [follow, hname, hup, hlong, hnode, hrest] at h
  | case8 way name hname hup hlong hnode =>
    simp only [follow, hname, hup, hlong, hnode, if_false, if_true, Except.ok.injEq,
      Prod.mk.injEq] at h
    obtain ⟨rfl, hcontent⟩ := h
    refine .last hname hup hlong ?_
    cases content <;> simp_all [Place.ofFile?]
  | case9 way name rest hname hup hlong hnode hrest =>
    simp [follow, hname, hup, hlong, hnode, hrest] at h

/-- What stands at the end. -/
theorem Leads.node? {start parts : List String} {content : Option ByteArray}
    (h : Leads t start parts u content) : u ≠ [] ∧ t.node? u = content.map .file := by
  induction h with
  | stay hname behind ih => exact ih
  | up behind ih => exact ih
  | down hname hup hlong hnode behind ih => exact ih
  | last hname hup hlong hnode => exact ⟨by simp, hnode⟩

theorem Leads.put {start parts : List String} {content : Option ByteArray}
    (h : Leads t start parts u content) (hway : way ≠ []) (hfree : t.node? way ≠ some .directory)
    (bytes : ByteArray) :
    Leads (t.put way (.file bytes)) start parts u (if u = way then some bytes else content) := by
  induction h with
  | stay hname behind ih => exact .stay hname ih
  | up behind ih => exact .up ih
  | @down w rest u name content hname hup hlong hnode behind ih =>
    have hne : w ++ [name] ≠ way := by
      rintro rfl
      exact hfree hnode
    exact .down hname hup hlong (by rw [node?_put hway, if_neg hne, hnode]) ih
  | @last w name content hname hup hlong hnode =>
    refine .last hname hup hlong ?_
    rw [node?_put hway, hnode]
    split <;> rfl

/-! ## Files -/

theorem isDirectory_of_read {path : String} {bytes : ByteArray} (h : t.read path = .ok bytes) :
    t.isDirectory path = false := by
  unfold FileTree.read at h
  unfold isDirectory
  split at h
  · next hfind => rw [hfind]
  all_goals cases h

/-- A path leads to a file with some content, or to a name that is free. -/
def Finds (t : FileTree) (path : String) (way : List String) (content : Option ByteArray) : Prop :=
  t.find path = .ok (way, .ofFile? content)

variable {path other : String} {content : Option ByteArray}

theorem Finds.read {bytes : ByteArray} (h : t.Finds path way (some bytes)) :
    t.read path = .ok bytes := by
  rw [FileTree.read, h]
  rfl

theorem Finds.write (h : t.Finds path way content) (bytes : ByteArray) :
    t.write path bytes = .ok (t.put way (.file bytes)) := by
  rw [FileTree.write, h]
  cases content <;> rfl

theorem finds_iff : t.Finds path way content ↔
    (¬ path.toList.contains '\x00' ∧ path ≠ "" ∧ ¬ maxPath < path.utf8ByteSize) ∧
      Leads t (if Path.isAbsolute path then [] else t.workingDirectory) (Path.parts path) way
        content := by
  unfold Finds find
  constructor
  · intro h
    split at h
    · cases h
    · next hzero =>
      split at h
      · cases h
      · next hempty =>
        split at h
        · cases h
        · next hlong => exact ⟨⟨hzero, hempty, hlong⟩, leads_of_follow h⟩
  · rintro ⟨⟨hzero, hempty, hlong⟩, h⟩
    rw [if_neg hzero, if_neg hempty, if_neg hlong, h.follow]

/-- A write changes what the ways to the same place find there, and nothing else. -/
theorem Finds.put (h : t.Finds path way content) {w : List String} {old : Option ByteArray}
    (hother : t.Finds other w old) (bytes : ByteArray) :
    (t.put w (.file bytes)).Finds path way (if way = w then some bytes else content) := by
  obtain ⟨hw, hnode⟩ := (finds_iff.mp hother).2.node?
  have hfree : t.node? w ≠ some .directory := by
    rw [hnode]
    cases old <;> simp
  have hdirectory : (t.put w (.file bytes)).workingDirectory = t.workingDirectory := by
    unfold FileTree.put
    split <;> rfl
  obtain ⟨hproper, hleads⟩ := finds_iff.mp h
  rw [finds_iff, hdirectory]
  exact ⟨hproper, hleads.put hw hfree bytes⟩

end PercentFormat.FileTree
