import PercentFormat.Proofs.Json.Openings

/-!
# Reading what was written

A value whose numbers are integers is read back from its text in any layout, as long as it is not
nested too deep.
-/

namespace PercentFormat.Json

mutual

/-- At most `depth` arrays and objects are nested in the value, and its numbers are integers of
64 bits. -/
def Fits (depth : Nat) : Json → Prop
  | .null => True
  | .bool _ => True
  | .number (.integer n) => inRange n
  | .number (.decimal _) => False
  | .string _ => True
  | .array items =>
    match depth with
    | 0 => False
    | depth + 1 => ItemsFit depth items
  | .object members =>
    match depth with
    | 0 => False
    | depth + 1 => MembersFit depth members

def ItemsFit (depth : Nat) : List Json → Prop
  | [] => True
  | j :: js => Fits depth j ∧ ItemsFit depth js

def MembersFit (depth : Nat) : List (String × Json) → Prop
  | [] => True
  | (_, j) :: ms => Fits depth j ∧ MembersFit depth ms

end

mutual

theorem Fits.mono {d k : Nat} (hle : d ≤ k) : ∀ {j : Json}, Fits d j → Fits k j
  | .null, h => h
  | .bool _, h => h
  | .number (.integer _), h => h
  | .string _, h => h
  | .array js, h => by
    cases d with
    | zero => exact h.elim
    | succ d =>
      obtain ⟨k, rfl⟩ := Nat.exists_eq_succ_of_ne_zero (Nat.ne_zero_of_lt hle)
      have hitems : ItemsFit d js := h
      exact hitems.mono (Nat.le_of_succ_le_succ hle)
  | .object ms, h => by
    cases d with
    | zero => exact h.elim
    | succ d =>
      obtain ⟨k, rfl⟩ := Nat.exists_eq_succ_of_ne_zero (Nat.ne_zero_of_lt hle)
      have hmembers : MembersFit d ms := h
      exact hmembers.mono (Nat.le_of_succ_le_succ hle)

theorem ItemsFit.mono {d k : Nat} (hle : d ≤ k) :
    ∀ {js : List Json}, ItemsFit d js → ItemsFit k js
  | [], h => h
  | _ :: _, h => ⟨h.1.mono hle, h.2.mono hle⟩

theorem MembersFit.mono {d k : Nat} (hle : d ≤ k) :
    ∀ {ms : List (String × Json)}, MembersFit d ms → MembersFit k ms
  | [], h => h
  | (_, _) :: _, h => ⟨h.1.mono hle, h.2.mono hle⟩

end

variable {depth : Nat}

theorem Fits.array {js : List Json} (h : Fits depth (.array js)) :
    ∃ d, depth = d + 1 ∧ ItemsFit d js := by
  cases depth with
  | zero => exact h.elim
  | succ d => exact ⟨d, rfl, h⟩

theorem Fits.object {ms : List (String × Json)} (h : Fits depth (.object ms)) :
    ∃ d, depth = d + 1 ∧ MembersFit d ms := by
  cases depth with
  | zero => exact h.elim
  | succ d => exact ⟨d, rfl, h⟩

mutual

theorem Fits.exact {d : Nat} : ∀ {j : Json}, Fits d j → Exact j
  | .null, _ => .null
  | .bool b, _ => .bool b
  | .number (.integer n), _ => .integer n
  | .string s, _ => .string s
  | .array js, h => by
    obtain ⟨d, rfl, hjs⟩ := h.array
    exact .array hjs.exact
  | .object ms, h => by
    obtain ⟨d, rfl, hms⟩ := h.object
    exact .object hms.exact

theorem ItemsFit.exact {d : Nat} : ∀ {js : List Json}, ItemsFit d js → ∀ j ∈ js, Exact j
  | [], _ => List.forall_mem_nil _
  | _ :: _, h => List.forall_mem_cons.mpr ⟨h.1.exact, h.2.exact⟩

theorem MembersFit.exact {d : Nat} :
    ∀ {ms : List (String × Json)}, MembersFit d ms → ∀ m ∈ ms, Exact m.2
  | [], _ => List.forall_mem_nil _
  | (_, _) :: _, h => List.forall_mem_cons.mpr ⟨h.1.exact, h.2.exact⟩

end

/-- A layout that puts nothing but white space between the parts of a text. -/
structure Layout.Blank (l : Layout) : Prop where
  gap : ∀ depth, ∀ c ∈ l.gap depth, Reader.isBlank c = true
  afterColon : ∀ c ∈ l.afterColon, Reader.isBlank c = true

theorem Layout.blank_compact : Layout.compact.Blank := by
  refine ⟨?_, ?_⟩
  · intro depth c hc
    simp [compact] at hc
  · intro c hc
    simp [compact] at hc

theorem Layout.blank_pretty : Layout.pretty.Blank := by
  refine ⟨?_, ?_⟩
  · intro depth c hc
    simp only [pretty, List.mem_cons, List.mem_replicate] at hc
    rcases hc with rfl | ⟨-, rfl⟩ <;> decide
  · intro c hc
    simp only [pretty, List.mem_singleton] at hc
    subst hc
    decide

namespace Reader

theorem skipBlank_append {bs : List Char} (h : ∀ c ∈ bs, isBlank c = true) {c : Char}
    (hc : isBlank c = false) (rest : List Char) : skipBlank (bs ++ c :: rest) = c :: rest := by
  rw [skipBlank, List.dropWhile_append_of_pos h, List.dropWhile_cons_of_neg (by simp [hc])]

section

variable {fuel : Nat} {c : Char} {rest cs : List Char}

theorem value_string (s : String) :
    value (fuel + 1) (writeString s ++ rest) = (.string (some s), some rest) := by
  have hbody := stringBody_escaped s.toList rest
  simp [value, writeString, hbody, orBroken]

theorem value_integer {n : Int} (hn : inRange n) (h : Apart rest) :
    value (fuel + 1) (writeInteger n ++ rest) = (.number (some (.integer n)), some rest) := by
  have hnumeral := numeral?_writeInteger h n
  obtain ⟨c, cs, hcs, hc⟩ := writeInteger_eq_cons n
  rw [hcs, List.cons_append] at hnumeral ⊢
  have hne : c ≠ 'n' ∧ c ≠ 't' ∧ c ≠ 'f' ∧ c ≠ '"' ∧ c ≠ '[' ∧ c ≠ '\x7b' := by
    rcases hc with rfl | hc
    · decide
    · refine ⟨?_, ?_, ?_, ?_, ?_, ?_⟩ <;> (rintro rfl; revert hc; decide)
  simp [value, hne, hnumeral, Numeral.number?_ofInteger hn, orBroken]

theorem value_array (h : skipBlank rest = c :: cs) (hc : c ≠ ']') :
    value (fuel + 1) ('[' :: rest) =
      (.array ((value fuel (c :: cs)).1 :: (items fuel (value fuel (c :: cs)).2).1),
        (items fuel (value fuel (c :: cs)).2).2) := by
  simp [value, h, hc]

theorem items_close (h : skipBlank cs = ']' :: rest) :
    items (fuel + 1) (some cs) = ([], some rest) := by
  simp [items, h]

theorem items_comma (cs : List Char) :
    items (fuel + 1) (some (',' :: cs)) =
      ((value fuel (skipBlank cs)).1 :: (items fuel (value fuel (skipBlank cs)).2).1,
        (items fuel (value fuel (skipBlank cs)).2).2) := by
  have hcomma : skipBlank (',' :: cs) = ',' :: cs := rfl
  simp [items, hcomma]

theorem value_object (h : skipBlank rest = '"' :: cs) :
    value (fuel + 1) ('\x7b' :: rest) =
      (.object ((member fuel ('"' :: cs)).1 :: (members fuel (member fuel ('"' :: cs)).2).1),
        (members fuel (member fuel ('"' :: cs)).2).2) := by
  simp [value, h]

theorem member_colon (name : String) (cs : List Char) :
    member (fuel + 1) (writeString name ++ ':' :: cs) =
      ((some name, (value fuel (skipBlank cs)).1), (value fuel (skipBlank cs)).2) := by
  have hbody := stringBody_escaped name.toList (':' :: cs)
  have hcolon : skipBlank (':' :: cs) = ':' :: cs := rfl
  simp [member, writeString, hbody, hcolon]

theorem members_close (h : skipBlank cs = '\x7d' :: rest) :
    members (fuel + 1) (some cs) = ([], some rest) := by
  simp [members, h]

theorem members_comma (h : skipBlank rest = '"' :: cs) :
    members (fuel + 1) (some (',' :: rest)) =
      ((member fuel ('"' :: cs)).1 :: (members fuel (member fuel ('"' :: cs)).2).1,
        (members fuel (member fuel ('"' :: cs)).2).2) := by
  have hcomma : skipBlank (',' :: rest) = ',' :: rest := rfl
  simp [members, hcomma, h]

/-- White space and closing signs end a number. -/
theorem apart_append {bs : List Char} (h : ∀ c ∈ bs, isBlank c = true)
    (hc : c.isDigit = false ∧ c ≠ '.' ∧ c ≠ 'e' ∧ c ≠ 'E') (rest : List Char) :
    Apart (bs ++ c :: rest) := by
  cases bs with
  | nil => exact apart_cons hc rest
  | cons b bs =>
    have hb := h b (by simp)
    refine apart_cons ?_ _
    simp only [isBlank, Bool.or_eq_true, beq_iff_eq] at hb
    rcases hb with ((rfl | rfl) | rfl) | rfl <;> decide

end

/-! ## Any layout -/

section

variable {l : Layout} {i : Nat}

theorem write_eq_cons {d : Nat} {j : Json} (h : Fits d j) :
    ∃ c cs, write l i j = c :: cs ∧ isBlank c = false ∧ c ≠ ']' := by
  obtain ⟨c, cs, hcs, hopening⟩ := h.exact.write_eq_cons (l := l) (i := i)
  exact ⟨c, cs, hcs, opening_visible hopening⟩

theorem skipBlank_write {d : Nat} {j : Json} (h : Fits d j) {bs : List Char}
    (hb : ∀ c ∈ bs, isBlank c = true) (rest : List Char) :
    skipBlank (bs ++ (write l i j ++ rest)) = write l i j ++ rest := by
  obtain ⟨c, cs, hcs, hc, -⟩ := write_eq_cons (l := l) (i := i) h
  rw [hcs, List.cons_append, skipBlank_append hb hc]

theorem skipBlank_writeString {bs : List Char} (hb : ∀ c ∈ bs, isBlank c = true) (name : String)
    (rest : List Char) :
    ∃ cs, skipBlank (bs ++ (writeString name ++ rest)) = '"' :: cs ∧
      writeString name ++ rest = '"' :: cs :=
  ⟨_, skipBlank_append hb rfl _, rfl⟩

/-- What stands behind an item of an array. -/
theorem apart_items (hl : l.Blank) (js : List Json) (rest : List Char) (k : Nat) :
    Apart (writeItems l i js ++ (l.gap k ++ ']' :: rest)) := by
  cases js with
  | nil => exact apart_append (hl.gap k) (by decide) rest
  | cons j js =>
    rw [writeItems]
    exact apart_cons (by decide) _

theorem apart_members (hl : l.Blank) (ms : List (String × Json)) (rest : List Char) (k : Nat) :
    Apart (writeMembers l i ms ++ (l.gap k ++ '\x7d' :: rest)) := by
  cases ms with
  | nil => exact apart_append (hl.gap k) (by decide) rest
  | cons m ms =>
    rw [writeMembers]
    exact apart_cons (by decide) _

end

/-- A value is read back from its text, whatever follows it. -/
def Reads (l : Layout) (j : Json) : Prop :=
  ∀ {i n : Nat} {rest : List Char}, (write l i j).length ≤ n → Apart rest →
    value (n + 1) (write l i j ++ rest) = (j.outline, some rest)

section

variable {l : Layout} {d i k n : Nat}

/-! ### Arrays -/

theorem items_write (hl : l.Blank) {js : List Json} (h : ∀ j ∈ js, Fits d j ∧ Reads l j)
    (hn : (writeItems l i js).length ≤ n) (rest : List Char) :
    items (n + 1) (some (writeItems l i js ++ (l.gap k ++ ']' :: rest))) =
      (itemOutlines js, some rest) := by
  induction js generalizing n with
  | nil => exact items_close (skipBlank_append (hl.gap k) rfl rest)
  | cons x xs ih =>
    obtain ⟨⟨hfits, hx⟩, hxs⟩ := List.forall_mem_cons.mp h
    simp only [writeItems, List.length_cons, List.length_append] at hn
    obtain ⟨n, rfl⟩ := Nat.exists_eq_add_of_le' (Nat.le_of_add_left_le hn)
    have hhead := hx (i := i) (n := n) (by omega) (apart_items (i := i) hl xs rest k)
    have htail := ih hxs (n := n) (by omega)
    simp only [writeItems, List.cons_append, List.append_assoc]
    rw [items_comma, skipBlank_write hfits (hl.gap i), hhead, htail]
    rfl

theorem reads_array (hl : l.Blank) {js : List Json} (h : ∀ j ∈ js, Fits d j ∧ Reads l j) :
    Reads l (.array js) := by
  intro i n rest hn _
  cases js with
  | nil => rfl
  | cons x xs =>
    obtain ⟨⟨hfits, hx⟩, hxs⟩ := List.forall_mem_cons.mp h
    simp only [write, List.length_cons, List.length_append] at hn
    obtain ⟨n, rfl⟩ := Nat.exists_eq_add_of_le' (Nat.le_of_add_left_le hn)
    have hhead := hx (i := i + 1) (n := n) (by omega) (apart_items (i := i + 1) hl xs rest i)
    have htail := items_write hl hxs (i := i + 1) (k := i) (n := n) (by omega) rest
    obtain ⟨c, cs, hcs, hc, hne⟩ := write_eq_cons (l := l) (i := i + 1) hfits
    simp only [write, hcs, List.cons_append, List.append_assoc, List.nil_append] at hhead ⊢
    rw [value_array (skipBlank_append (hl.gap (i + 1)) hc _) hne, hhead, htail]
    rfl

/-! ### Objects -/

theorem member_write (hl : l.Blank) {j : Json} (hfits : Fits d j) (h : Reads l j) (name : String)
    (hn : (write l i j).length < n) {rest : List Char} (ha : Apart rest) :
    member (n + 1) (writeString name ++ ':' :: (l.afterColon ++ (write l i j ++ rest))) =
      ((some name, j.outline), some rest) := by
  obtain ⟨n, rfl⟩ := Nat.exists_eq_add_of_lt hn
  rw [member_colon, skipBlank_write hfits hl.afterColon, h (by omega) ha]

theorem members_write (hl : l.Blank) {ms : List (String × Json)}
    (h : ∀ m ∈ ms, Fits d m.2 ∧ Reads l m.2) (hn : (writeMembers l i ms).length ≤ n)
    (rest : List Char) :
    members (n + 1) (some (writeMembers l i ms ++ (l.gap k ++ '\x7d' :: rest))) =
      (memberOutlines ms, some rest) := by
  induction ms generalizing n with
  | nil => exact members_close (skipBlank_append (hl.gap k) rfl rest)
  | cons m ms ih =>
    obtain ⟨name, x⟩ := m
    obtain ⟨⟨hfits, hx⟩, hms⟩ := List.forall_mem_cons.mp h
    simp only [writeMembers, List.length_cons, List.length_append] at hn
    obtain ⟨n, rfl⟩ := Nat.exists_eq_add_of_le' (Nat.le_of_add_left_le hn)
    have hhead := member_write (j := x) hl hfits hx name (i := i) (n := n) (by omega)
      (apart_members (i := i) hl ms rest k)
    have htail := ih hms (n := n) (by omega)
    obtain ⟨cs, hskip, hcs⟩ := skipBlank_writeString (hl.gap i) name
      (':' :: (l.afterColon ++ (write l i x ++ (writeMembers l i ms ++
        (l.gap k ++ '\x7d' :: rest)))))
    rw [hcs] at hhead
    simp only [writeMembers, List.cons_append, List.append_assoc]
    rw [members_comma hskip, hhead, htail]
    rfl

theorem reads_object (hl : l.Blank) {ms : List (String × Json)}
    (h : ∀ m ∈ ms, Fits d m.2 ∧ Reads l m.2) : Reads l (.object ms) := by
  intro i n rest hn _
  cases ms with
  | nil => rfl
  | cons m ms =>
    obtain ⟨name, x⟩ := m
    obtain ⟨⟨hfits, hx⟩, hms⟩ := List.forall_mem_cons.mp h
    simp only [write, List.length_cons, List.length_append] at hn
    obtain ⟨n, rfl⟩ := Nat.exists_eq_add_of_le' (Nat.le_of_add_left_le hn)
    have hhead := member_write (j := x) hl hfits hx name (i := i + 1) (n := n) (by omega)
      (apart_members (i := i + 1) hl ms rest i)
    have htail := members_write hl hms (i := i + 1) (k := i) (n := n) (by omega) rest
    obtain ⟨cs, hskip, hcs⟩ := skipBlank_writeString (hl.gap (i + 1)) name
      (':' :: (l.afterColon ++ (write l (i + 1) x ++ (writeMembers l (i + 1) ms ++
        (l.gap i ++ '\x7d' :: rest)))))
    rw [hcs] at hhead
    simp only [write, List.cons_append, List.append_assoc, List.nil_append]
    rw [value_object hskip, hhead, htail]
    rfl

end

/-! ### Values -/

mutual

theorem reads_value {l : Layout} (hl : l.Blank) {d : Nat} : ∀ j : Json, Fits d j → Reads l j
  | .null, _ => fun _ _ => rfl
  | .bool true, _ => fun _ _ => rfl
  | .bool false, _ => fun _ _ => rfl
  | .number (.integer _), h => fun _ ha => value_integer h ha
  | .string s, _ => fun _ _ => value_string s
  | .array js, h => by
    obtain ⟨d, rfl, hjs⟩ := h.array
    exact reads_array hl (reads_items hl js hjs)
  | .object ms, h => by
    obtain ⟨d, rfl, hms⟩ := h.object
    exact reads_object hl (reads_members hl ms hms)

theorem reads_items {l : Layout} (hl : l.Blank) {d : Nat} :
    ∀ js : List Json, ItemsFit d js → ∀ j ∈ js, Fits d j ∧ Reads l j
  | [], _ => List.forall_mem_nil _
  | j :: js, h => List.forall_mem_cons.mpr ⟨⟨h.1, reads_value hl j h.1⟩, reads_items hl js h.2⟩

theorem reads_members {l : Layout} (hl : l.Blank) {d : Nat} :
    ∀ ms : List (String × Json), MembersFit d ms → ∀ m ∈ ms, Fits d m.2 ∧ Reads l m.2
  | [], _ => List.forall_mem_nil _
  | (_, j) :: ms, h =>
    List.forall_mem_cons.mpr ⟨⟨h.1, reads_value hl j h.1⟩, reads_members hl ms h.2⟩

end

end Reader

theorem outlineOf_write {l : Layout} (hl : l.Blank) {d : Nat} {j : Json} (h : Fits d j) :
    outlineOf (write l 0 j) = (j.outline, true) := by
  have hskip : Reader.skipBlank (write l 0 j) = write l 0 j := by
    have happend := Reader.skipBlank_write (l := l) (i := 0) h (List.forall_mem_nil _) []
    rwa [List.nil_append, List.append_nil] at happend
  have hvalue := Reader.reads_value hl j h (i := 0) (Nat.le_refl _) Reader.apart_nil
  rw [List.append_nil] at hvalue
  rw [outlineOf, hskip, hvalue]
  rfl

mutual

/-- A value that is not too deep is what its outline shows. -/
theorem value?_outline {d : Nat} : ∀ j : Json, Fits d j → j.outline.value? d = some j
  | .null, _ => rfl
  | .bool _, _ => rfl
  | .number _, _ => rfl
  | .string _, _ => rfl
  | .array js, h => by
    cases d with
    | zero => exact h.elim
    | succ d => simp [outline, Outline.value?, itemValues?_outline js h]
  | .object ms, h => by
    cases d with
    | zero => exact h.elim
    | succ d => simp [outline, Outline.value?, memberValues?_outline ms h]

theorem itemValues?_outline {d : Nat} :
    ∀ js : List Json, ItemsFit d js → Outline.itemValues? d (itemOutlines js) = some js
  | [], _ => rfl
  | j :: js, h => by
    simp [itemOutlines, Outline.itemValues?, value?_outline j h.1, itemValues?_outline js h.2]

theorem memberValues?_outline {d : Nat} :
    ∀ ms : List (String × Json), MembersFit d ms →
      Outline.memberValues? d (memberOutlines ms) = some ms
  | [], _ => rfl
  | (name, j) :: ms, h => by
    simp [memberOutlines, Outline.memberValues?, value?_outline j h.1,
      memberValues?_outline ms h.2]

end

theorem parse?_write {l : Layout} (hl : l.Blank) {j : Json} (h : Fits Outline.maxDepth j) :
    parse? (write l 0 j) = some j := by
  rw [parse?, outlineOf_write hl h]
  exact value?_outline j h

/-! ## Lines -/

theorem write_object (l : Layout) (i : Nat) (ms : List (String × Json)) :
    ∃ inner, write l i (.object ms) = '\x7b' :: (inner ++ ['\x7d']) := by
  cases ms with
  | nil => exact ⟨[], rfl⟩
  | cons m ms =>
    obtain ⟨name, j⟩ := m
    refine ⟨l.gap (i + 1) ++ (writeString name ++ (':' :: (l.afterColon ++
      (write l (i + 1) j ++ (writeMembers l (i + 1) ms ++ l.gap i))))), ?_⟩
    simp only [write, List.append_assoc, List.cons_append]

mutual

/-- In the compact layout no character is a control, so the text is one line. -/
theorem compact_range {d i : Nat} : ∀ j : Json, Fits d j →
    ∀ c ∈ write .compact i j, 0x20 ≤ c.toNat
  | .null, _ => by simp [write]
  | .bool true, _ => by simp [write]
  | .bool false, _ => by simp [write]
  | .number (.integer _), _ => fun _ hc => writeInteger_range hc
  | .string _, _ => fun _ hc => writeString_range hc
  | .array [], _ => by simp [write]
  | .array (x :: xs), h => by
    obtain ⟨d, rfl, hx, hxs⟩ := h.array
    have hhead := compact_range (i := i + 1) x hx
    have htail := compactItems_range (i := i + 1) xs hxs
    simp only [write, Layout.compact, List.nil_append, List.mem_cons, List.mem_append,
      List.not_mem_nil, or_false]
    rintro c (rfl | hc | hc | rfl)
    · decide
    · exact hhead c hc
    · exact htail c hc
    · decide
  | .object [], _ => by simp [write]
  | .object ((name, x) :: ms), h => by
    obtain ⟨d, rfl, hx, hms⟩ := h.object
    have hhead := compact_range (i := i + 1) x hx
    have htail := compactMembers_range (i := i + 1) ms hms
    simp only [write, Layout.compact, List.nil_append, List.mem_cons, List.mem_append,
      List.not_mem_nil, or_false]
    rintro c (rfl | hc | rfl | hc | hc | rfl)
    · decide
    · exact writeString_range hc
    · decide
    · exact hhead c hc
    · exact htail c hc
    · decide

theorem compactItems_range {d i : Nat} : ∀ js : List Json, ItemsFit d js →
    ∀ c ∈ writeItems .compact i js, 0x20 ≤ c.toNat
  | [], _ => by simp [writeItems]
  | x :: xs, h => by
    have hhead := compact_range (i := i) x h.1
    have htail := compactItems_range (i := i) xs h.2
    simp only [writeItems, Layout.compact, List.nil_append, List.mem_cons, List.mem_append]
    rintro c (rfl | hc | hc)
    · decide
    · exact hhead c hc
    · exact htail c hc

theorem compactMembers_range {d i : Nat} : ∀ ms : List (String × Json), MembersFit d ms →
    ∀ c ∈ writeMembers .compact i ms, 0x20 ≤ c.toNat
  | [], _ => by simp [writeMembers]
  | (name, x) :: ms, h => by
    have hhead := compact_range (i := i) x h.1
    have htail := compactMembers_range (i := i) ms h.2
    simp only [writeMembers, Layout.compact, List.nil_append, List.mem_cons, List.mem_append]
    rintro c (rfl | hc | rfl | hc | hc)
    · decide
    · exact writeString_range hc
    · decide
    · exact hhead c hc
    · exact htail c hc

end

end PercentFormat.Json
