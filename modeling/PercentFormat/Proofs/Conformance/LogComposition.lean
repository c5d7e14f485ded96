import PercentFormat.Proofs.Conformance.EntryLines
import PercentFormat.Proofs.Text.LineNumbers

/-!
# Logs put together

A check says of every line what the check of that line alone says. So the check of a text behind
whole lines is the two checks put together, with the lines of the text numbered on from those in
front; blank lines only move the numbers of the lines behind them, and it does not matter how a line
ends.
-/

namespace PercentFormat

/-- The error of a line when there are so many more lines in front of it. -/
def LogError.raised (k : Nat) (e : LogError) : LogError := { e with line := e.line + k }

namespace LogEntry

variable {line : List Char} {number : Nat}

theorem ofLine_ne_error_nil (line : List Char) : ofLine line ≠ .error [] := by
  unfold ofLine
  split
  · nofun
  · split
    · split <;> nofun
    · nofun

theorem ofNumberedLine_of_error {ps : List LogProblem} (h : ofLine line = .error ps) :
    ofNumberedLine line number = .error (ps.map (⟨number, ·⟩)) := by
  rw [ofNumberedLine, h]

theorem exists_of_ofNumberedLine {es : List LogError} (h : ofNumberedLine line number = .error es) :
    ∃ ps, ofLine line = .error ps := by
  unfold ofNumberedLine at h
  split at h
  · exact absurd h nofun
  · next ps hps => exact ⟨ps, hps⟩

end LogEntry

namespace Log

open LogError (raised)

/-! ## One line -/

section

variable {line : List Char} {p : LogProblem}

/-- What is wrong with a line, wherever it stands. -/
def lineProblems (line : List Char) : List LogProblem :=
  if Unicode.isBlank line then []
  else
    match LogEntry.ofLine line with
    | .ok _ => []
    | .error ps => ps

theorem lineErrors_eq (line : List Char) (number : Nat) :
    lineErrors line number = (lineProblems line).map (⟨number, ·⟩) := by
  rw [lineErrors, lineProblems, LogEntry.ofNumberedLine]
  split
  · rfl
  · cases LogEntry.ofLine line <;> rfl

theorem lineProblems_of_blank (h : Unicode.isBlank line = true) : lineProblems line = [] :=
  if_pos h

theorem lineProblems_of_ok {e : LogEntry} (h : LogEntry.ofLine line = .ok e) :
    lineProblems line = [] := by
  rw [lineProblems, h]
  exact ite_self _

theorem lineProblems_of_error (hblank : Unicode.isBlank line = false) {ps : List LogProblem}
    (h : LogEntry.ofLine line = .error ps) : lineProblems line = ps := by
  rw [lineProblems, hblank, h]
  rfl

theorem ofLine_of_mem_lineProblems (h : p ∈ lineProblems line) :
    Unicode.isBlank line = false ∧ LogEntry.ofLine line = .error (lineProblems line) := by
  cases hblank : Unicode.isBlank line with
  | true =>
    rw [lineProblems_of_blank hblank] at h
    exact absurd h List.not_mem_nil
  | false =>
    refine ⟨rfl, ?_⟩
    cases hline : LogEntry.ofLine line with
    | ok e =>
      rw [lineProblems_of_ok hline] at h
      exact absurd h List.not_mem_nil
    | error ps => rw [lineProblems_of_error hblank hline]

end

/-! ## Numbered lines -/

section

variable {e : LogError} {k : Nat} {ls : List (List Char)}

theorem errorsFrom_append (k : Nat) (ls ms : List (List Char)) :
    errorsFrom k (ls ++ ms) = errorsFrom k ls ++ errorsFrom (k + ls.length) ms := by
  induction ls generalizing k with
  | nil => rfl
  | cons line ls ih =>
    rw [List.cons_append, errorsFrom, errorsFrom, ih, List.append_assoc, List.length_cons,
      Nat.add_assoc, Nat.add_comm 1]

theorem errorsFrom_raised (k j : Nat) (ls : List (List Char)) :
    errorsFrom (k + j) ls = (errorsFrom k ls).map (raised j) := by
  induction ls generalizing k with
  | nil => rfl
  | cons line ls ih =>
    rw [errorsFrom, errorsFrom, List.map_append, ← ih, lineErrors_eq, lineErrors_eq, List.map_map,
      Nat.add_right_comm]
    rfl

theorem mem_errorsFrom_iff : e ∈ errorsFrom k ls ↔
    ∃ i line, ls[i]? = some line ∧ e.line = k + i ∧ e.problem ∈ lineProblems line := by
  induction ls generalizing k with
  | nil => simp [errorsFrom]
  | cons line ls ih =>
    have hfirst : e ∈ lineErrors line k ↔ e.line = k ∧ e.problem ∈ lineProblems line := by
      rw [lineErrors_eq, List.mem_map]
      constructor
      · intro h
        obtain ⟨p, hp, rfl⟩ := h
        exact ⟨rfl, hp⟩
      · intro h
        exact ⟨e.problem, h.2, by rw [← h.1]⟩
    rw [errorsFrom, List.mem_append, hfirst, ih]
    constructor
    · intro h
      rcases h with h | ⟨i, m, hi, hline, hp⟩
      · exact ⟨0, line, rfl, h⟩
      · exact ⟨i + 1, m, hi, by omega, hp⟩
    · intro h
      obtain ⟨i, m, hi, hline, hp⟩ := h
      cases i with
      | zero =>
        obtain rfl := Option.some.inj hi
        exact .inl ⟨hline, hp⟩
      | succ i => exact .inr ⟨i, m, hi, by omega, hp⟩

theorem line_range (h : e ∈ errorsFrom k ls) : k ≤ e.line ∧ e.line < k + ls.length := by
  obtain ⟨i, line, hi, hline, -⟩ := mem_errorsFrom_iff.mp h
  obtain ⟨hlt, -⟩ := List.getElem?_eq_some_iff.mp hi
  omega

theorem filter_errorsFrom_of_outside {n : Nat} (h : n < k ∨ k + ls.length ≤ n) :
    (errorsFrom k ls).filter (·.line = n) = [] := by
  rw [List.filter_eq_nil_iff]
  intro e he
  have hrange := line_range he
  simp only [decide_eq_true_eq]
  omega

theorem filter_errorsFrom {i : Nat} {line : List Char} (h : ls[i]? = some line) :
    (errorsFrom k ls).filter (·.line = k + i) = (lineProblems line).map (⟨k + i, ·⟩) := by
  obtain ⟨hlt, hline⟩ := List.getElem?_eq_some_iff.mp h
  have hlength : (ls.take i).length = i := List.length_take_of_le (Nat.le_of_lt hlt)
  have hsplit : errorsFrom k ls = errorsFrom k (ls.take i) ++
      (lineErrors line (k + i) ++ errorsFrom (k + i + 1) (ls.drop (i + 1))) := by
    calc errorsFrom k ls = errorsFrom k (ls.take i ++ line :: ls.drop (i + 1)) := by
          rw [← hline, List.getElem_cons_drop, List.take_append_drop]
      _ = _ := by rw [errorsFrom_append, hlength, errorsFrom]
  have hhere : (lineErrors line (k + i)).filter (·.line = k + i) =
      (lineProblems line).map (⟨k + i, ·⟩) := by
    rw [lineErrors_eq, List.filter_eq_self]
    intro e he
    obtain ⟨p, -, rfl⟩ := List.mem_map.mp he
    exact decide_eq_true rfl
  rw [hsplit, List.filter_append, List.filter_append, hhere,
    filter_errorsFrom_of_outside (by omega), filter_errorsFrom_of_outside (by omega),
    List.nil_append, List.append_nil]

theorem pairwise_errorsFrom (k : Nat) (ls : List (List Char)) :
    (errorsFrom k ls).Pairwise (·.line ≤ ·.line) := by
  induction ls generalizing k with
  | nil => exact .nil
  | cons line ls ih =>
    have hfirst : ∀ e ∈ lineErrors line k, e.line = k := by
      intro e he
      rw [lineErrors_eq] at he
      obtain ⟨p, -, rfl⟩ := List.mem_map.mp he
      rfl
    rw [errorsFrom, List.pairwise_append]
    refine ⟨?_, ih (k + 1), ?_⟩
    · refine List.pairwise_of_forall_mem_list fun d hd e he => ?_
      exact Nat.le_of_eq ((hfirst d hd).trans (hfirst e he).symm)
    · intro d hd e he
      rw [hfirst d hd]
      exact Nat.le_of_succ_le (line_range he).1

end

/-! ## Texts -/

section

variable {a b content : String}

theorem errors_append (h : Text.Whole a.toList) (b : String) :
    errors (a ++ b) = errors a ++ (errors b).map (raised (a.toList.count '\n')) := by
  rw [errors, errors, errors, String.toList_append, h.lines_append, errorsFrom_append,
    h.length_lines, errorsFrom_raised]

theorem entryCount_append (h : Text.Whole a.toList) (b : String) :
    entryCount (a ++ b) = entryCount a + entryCount b := by
  rw [entryCount, entryCount, entryCount, String.toList_append, h.lines_append, List.countP_append]

/-- What a check complains about. -/
def complaints : Except (List LogError) Nat → List LogError
  | .ok _ => []
  | .error es => es

theorem check_eq_ok (h : errors content = []) : check content = .ok (entryCount content) := by
  rw [check, h]

theorem check_eq_error (h : errors content ≠ []) : check content = .error (errors content) := by
  obtain ⟨e, es, hes⟩ := List.exists_cons_of_ne_nil h
  rw [check, hes]

theorem complaints_check (content : String) : complaints (check content) = errors content := by
  by_cases h : errors content = []
  · rw [check_eq_ok h, h]
    rfl
  · rw [check_eq_error h]
    rfl

theorem check_congr (h : Text.lines a.toList = Text.lines b.toList) : check a = check b := by
  rw [check, check, errors, errors, entryCount, entryCount, h]

/-- The checks of `k` lines and of the text behind them put together. -/
def joined (k : Nat) : Except (List LogError) Nat → Except (List LogError) Nat →
    Except (List LogError) Nat
  | .ok m, .ok n => .ok (m + n)
  | x, y => .error (complaints x ++ (complaints y).map (raised k))

theorem joined_error (k : Nat) (es : List LogError) (y : Except (List LogError) Nat) :
    joined k (.error es) y = .error (es ++ (complaints y).map (raised k)) := by
  cases y <;> rfl

theorem joined_ok_zero (k : Nat) (x : Except (List LogError) Nat) : joined k x (.ok 0) = x := by
  cases x with
  | ok m => rfl
  | error es => exact congrArg Except.error (List.append_nil es)

theorem check_append (h : Text.Whole a.toList) (b : String) :
    check (a ++ b) = joined (a.toList.count '\n') (check a) (check b) := by
  have happend := errors_append h b
  by_cases ha : errors a = []
  · by_cases hb : errors b = []
    · rw [ha, hb] at happend
      rw [check_eq_ok happend, check_eq_ok ha, check_eq_ok hb, entryCount_append h, joined]
    · have hne : errors (a ++ b) ≠ [] := by simp [happend, hb]
      rw [check_eq_error hne, check_eq_ok ha, check_eq_error hb, happend, ha]
      rfl
  · have hne : errors (a ++ b) ≠ [] := by simp [happend, ha]
    rw [check_eq_error hne, check_eq_error ha, happend, joined_error, complaints_check]

theorem check_line (hfree : '\n' ∉ content.toList)
    (hblank : Unicode.isBlank content.toList = false) :
    check content = (LogEntry.ofNumberedLine content.toList 1).map fun _ => 1 := by
  have hne : content.toList ≠ [] := by
    intro hnil
    rw [hnil] at hblank
    exact absurd hblank nofun
  have hlines := Text.lines_of_not_mem hfree hne
  have herrors : errors content = (lineProblems content.toList).map (⟨1, ·⟩) := by
    rw [errors, hlines, errorsFrom, errorsFrom, List.append_nil, lineErrors_eq]
  have hcount : entryCount content = 1 := by
    rw [entryCount, hlines, List.countP_singleton, hblank]
    rfl
  cases hline : LogEntry.ofLine content.toList with
  | ok e =>
    rw [lineProblems_of_ok hline] at herrors
    rw [check_eq_ok herrors, hcount, LogEntry.ofNumberedLine, hline]
    rfl
  | error ps =>
    rw [lineProblems_of_error hblank hline] at herrors
    have hnonempty : errors content ≠ [] := by
      intro hnil
      rw [herrors, List.map_eq_nil_iff] at hnil
      exact LogEntry.ofLine_ne_error_nil _ (hnil ▸ hline)
    rw [check_eq_error hnonempty, herrors, LogEntry.ofNumberedLine_of_error hline]
    rfl

theorem line_pos {e : LogError} (he : e ∈ complaints (check content)) : 1 ≤ e.line := by
  rw [complaints_check] at he
  exact (line_range he).1

theorem line_le_count (ha : Text.Whole a.toList) {e : LogError} (he : e ∈ complaints (check a)) :
    e.line ≤ a.toList.count '\n' := by
  rw [complaints_check] at he
  have hrange := line_range he
  rw [ha.length_lines] at hrange
  omega

/-! ## Blank lines -/

theorem check_of_blank (h : Unicode.isBlank content.toList = true) : check content = .ok 0 := by
  have hlines : ∀ line ∈ Text.lines content.toList, Unicode.isBlank line = true := by
    intro line hline
    obtain ⟨i, hi⟩ := List.getElem?_of_mem hline
    have hsubset := (Text.HasLine.of_getElem?_lines hi).subset
    rw [Unicode.isBlank, List.all_eq_true] at h ⊢
    exact fun c hc => h c (hsubset hc)
  have herrors : errors content = [] := by
    rw [List.eq_nil_iff_forall_not_mem]
    intro e he
    obtain ⟨i, line, hi, -, hp⟩ := mem_errorsFrom_iff.mp he
    rw [lineProblems_of_blank (hlines line (List.mem_of_getElem? hi))] at hp
    exact List.not_mem_nil hp
  have hcount : entryCount content = 0 := by
    rw [entryCount, List.countP_eq_zero]
    intro line hline
    simp [hlines line hline]
  rw [check_eq_ok herrors, hcount]

theorem check_append_blank (ha : Text.Whole a.toList) {blank : String}
    (h : Unicode.isBlank blank.toList = true) : check (a ++ blank) = check a := by
  rw [check_append ha, check_of_blank h, joined_ok_zero]

theorem whole_append_end (a : String) : Text.Whole (a ++ "\r\n").toList := by
  have hlist : (a ++ "\r\n").toList = (a.toList ++ ['\r']) ++ ['\n'] := by simp
  rw [hlist]
  exact Text.whole_append_newline _

theorem check_append_end (a : String) : check (a ++ "\r\n") = check a := by
  -- Behind whole lines this is a blank line more, else the end of a line that had none.
  by_cases h : Text.Whole a.toList
  · exact check_append_blank h rfl
  · apply check_congr
    rw [String.toList_append]
    exact Text.lines_append_end h

theorem check_return_newline (h : a.toList.getLast? ≠ some '\r') (b : String) :
    check (a ++ "\r\n" ++ b) = check (a ++ "\n" ++ b) := by
  apply check_congr
  simpa using Text.lines_return_newline h b.toList

/-- An error of a text after a line was put behind `k` lines of the text. -/
def renumbered (k : Nat) (e : LogError) : LogError := if k < e.line then e.raised 1 else e

theorem mapError_joined {k : Nat} {x y : Except (List LogError) Nat}
    (hx : ∀ e ∈ complaints x, e.line ≤ k) (hy : ∀ e ∈ complaints y, 1 ≤ e.line) :
    (joined k x y).mapError (List.map (renumbered k)) = joined (k + 1) x y := by
  have hfront : (complaints x).map (renumbered k) = complaints x :=
    (List.map_congr_left fun e he => if_neg (Nat.not_lt.mpr (hx e he))).trans (List.map_id _)
  have hbehind : ((complaints y).map (raised k)).map (renumbered k) =
      (complaints y).map (raised (k + 1)) := by
    rw [List.map_map]
    refine List.map_congr_left fun e he => ?_
    have hlt : k < (raised k e).line := Nat.lt_add_of_pos_left (hy e he)
    exact if_pos hlt
  have hes : (complaints x ++ (complaints y).map (raised k)).map (renumbered k) =
      complaints x ++ (complaints y).map (raised (k + 1)) := by
    rw [List.map_append, hfront, hbehind]
  cases x with
  | ok m =>
    cases y with
    | ok n => rfl
    | error es => exact congrArg Except.error hes
  | error es =>
    rw [joined_error, joined_error]
    exact congrArg Except.error hes

theorem check_insert_blank (ha : Text.Whole a.toList) {blank : String}
    (hblank : Unicode.isBlank blank.toList = true) (hline : '\n' ∉ blank.toList) (b : String) :
    check (a ++ (blank ++ "\n") ++ b) =
      (check (a ++ b)).mapError (List.map (renumbered (a.toList.count '\n'))) := by
  have hlist : (blank ++ "\n").toList = blank.toList ++ ['\n'] := String.toList_append
  have hwhole : Text.Whole (blank ++ "\n").toList := hlist ▸ Text.whole_append_newline _
  have hwholes : Text.Whole (a ++ (blank ++ "\n")).toList := by
    rw [String.toList_append]
    exact ha.append hwhole
  have hnothing : check (blank ++ "\n") = .ok 0 := by
    refine check_of_blank ?_
    rw [hlist, Unicode.isBlank, List.all_append, Bool.and_eq_true]
    exact ⟨hblank, rfl⟩
  have hcount : (a ++ (blank ++ "\n")).toList.count '\n' = a.toList.count '\n' + 1 := by
    rw [String.toList_append, hlist, List.count_append, List.count_append,
      List.count_eq_zero.mpr hline, List.count_singleton_self]
  rw [check_append hwholes, check_append ha (blank ++ "\n"), hnothing, joined_ok_zero, hcount,
    check_append ha b, mapError_joined (fun e he => line_le_count ha he) fun e he => line_pos he]

end

/-! ## What a check says -/

/-- Errors say what is wrong with which lines of a text. -/
structure Locates (content : String) (es : List LogError) : Prop where
  named : ∀ e ∈ es, ∃ line, Text.HasLine content.toList e.line line ∧
    Unicode.isBlank line = false ∧
    ∀ number, LogEntry.ofNumberedLine line number =
      .error ((es.filter (·.line = e.line)).map ({ · with line := number }))
  all : ∀ n line, Text.HasLine content.toList n line → Unicode.isBlank line = false →
    (∃ number ds, LogEntry.ofNumberedLine line number = .error ds) → ∃ e ∈ es, e.line = n
  sorted : es.Pairwise (·.line ≤ ·.line)

theorem locates_errors (content : String) : Locates content (errors content) := by
  refine ⟨?_, ?_, pairwise_errorsFrom 1 _⟩
  · intro e he
    obtain ⟨i, line, hi, hnumber, hp⟩ := mem_errorsFrom_iff.mp he
    obtain ⟨hblank, hproblems⟩ := ofLine_of_mem_lineProblems hp
    refine ⟨line, Text.hasLine_iff.mpr ⟨i, hi, hnumber.trans (Nat.add_comm 1 i)⟩, hblank, ?_⟩
    intro number
    rw [LogEntry.ofNumberedLine_of_error hproblems, hnumber, errors, filter_errorsFrom hi,
      List.map_map]
    rfl
  · intro n line hline hblank hfails
    obtain ⟨number, ds, hds⟩ := hfails
    obtain ⟨ps, hps⟩ := LogEntry.exists_of_ofNumberedLine hds
    obtain ⟨i, hi, rfl⟩ := Text.hasLine_iff.mp hline
    obtain ⟨p, hp⟩ := List.exists_mem_of_ne_nil ps fun hnil =>
      LogEntry.ofLine_ne_error_nil line (hnil ▸ hps)
    rw [← lineProblems_of_error hblank hps] at hp
    exact ⟨⟨i + 1, p⟩, mem_errorsFrom_iff.mpr ⟨i, line, hi, Nat.add_comm i 1, hp⟩, rfl⟩

/-- A check goes line by line. Whole lines and the text behind them are checked one by one, and a
line alone as the reader of entries takes it. The errors name exactly the lines that fail. A blank
line that is put in only moves the lines behind it, at the end of a text it changes nothing, and a
last line may be given an end. Lines may end in either way. -/
theorem check_by_lines :
    (∀ a b : String, Text.Whole a.toList →
      check (a ++ b) = joined (a.toList.count '\n') (check a) (check b)) ∧
    (∀ line : String, '\n' ∉ line.toList → Unicode.isBlank line.toList = false →
      check line = (LogEntry.ofNumberedLine line.toList 1).map fun _ => 1) ∧
    (∀ content : String, Locates content (complaints (check content))) ∧
    (∀ a blank b : String, Text.Whole a.toList → Unicode.isBlank blank.toList = true →
      '\n' ∉ blank.toList → check (a ++ (blank ++ "\n") ++ b) =
        (check (a ++ b)).mapError (List.map (renumbered (a.toList.count '\n')))) ∧
    (∀ a blank : String, Text.Whole a.toList → Unicode.isBlank blank.toList = true →
      check (a ++ blank) = check a) ∧
    (∀ a : String, check (a ++ "\r\n") = check a) ∧
    ∀ a b : String, a.toList.getLast? ≠ some '\r' →
      check (a ++ "\r\n" ++ b) = check (a ++ "\n" ++ b) := by
  refine ⟨fun a b ha => check_append ha b, ?_, ?_, ?_, ?_, ?_, ?_⟩
  · exact fun line hfree hblank => check_line hfree hblank
  · intro content
    rw [complaints_check]
    exact locates_errors content
  · exact fun a blank b ha hblank hline => check_insert_blank ha hblank hline b
  · exact fun a blank ha hblank => check_append_blank ha hblank
  · exact check_append_end
  · exact fun a b ha => check_return_newline ha b

def accepted : LogEntry where
  timestamp := "t"
  traceId := "a::b::c"
  level := .info
  event := "end"

theorem check_by_lines_mixed :
    check (accepted.line ++ "\r\n" ++ accepted.line) = .ok 2 ∧
    check ("x\n" ++ "[]") =
      .error (⟨1, .notJson⟩ :: LogEntry.requiredNames.map (⟨2, .missing ·⟩)) ∧
    check ("x\n" ++ (" \t" ++ "\n") ++ "[]") =
      .error (⟨1, .notJson⟩ :: LogEntry.requiredNames.map (⟨3, .missing ·⟩)) ∧
    check ("x" ++ "\r\n" ++ "[]") = check ("x" ++ "\n" ++ "[]") := by
  obtain ⟨hjoined, hline, -, hinsert, -, hend, hends⟩ := check_by_lines
  have hwritable : accepted.Writable := nofun
  have haccepted : check accepted.line = .ok 1 := by
    rw [hline _ hwritable.isLine.newline accepted.isBlank_line, LogEntry.ofNumberedLine,
      LogEntry.ofLine_line hwritable, if_neg (by decide)]
    rfl
  have htwo : check ("x\n" ++ "[]") =
      .error (⟨1, .notJson⟩ :: LogEntry.requiredNames.map (⟨2, .missing ·⟩)) := by
    rw [hjoined "x\n" "[]" (.inr rfl)]
    rfl
  refine ⟨?_, htwo, ?_, hends "x" "[]" (by decide)⟩
  · rw [hjoined _ accepted.line (whole_append_end accepted.line), hend, haccepted, joined]
  · rw [hinsert "x\n" " \t" "[]" (.inr rfl) rfl (by decide), htwo]
    rfl

end Log

end PercentFormat
