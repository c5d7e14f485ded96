import PercentFormat.Proofs.Template.Directives
import PercentFormat.Proofs.Template.Reading

/-!
# Compiling well-formed formats

A well-formed format compiles to the template that its items mean. The compiler reads the items one
by one, so what follows them is compiled as if it stood alone, with the cursor where they left it.
-/

namespace PercentFormat

/-! ## Verbs -/

namespace Grammar

theorem Letter.ne {a : Letter} {c : Char} (h : c ∈ ['+', '-', '#', ' ', '.', '[', '*', '%']) :
    a.char ≠ c := by
  intro he
  exact a.plain (he ▸ h)

theorem Letter.undigited (a : Letter) (cs : List Char) : Undigited (a.char :: cs) := by
  simpa [Undigited] using a.not_digit

theorem Letter.unbracketed (a : Letter) (cs : List Char) : Unbracketed (a.char :: cs) := by
  simpa [Unbracketed] using a.ne (by simp)

theorem Letter.unmarked (a : Letter) (cs : List Char) : Unmarked (a.char :: cs) := by
  have hd : a.char ≠ '0' := by
    intro he
    exact absurd a.not_digit (by simp [he])
  have hp := a.plain
  simp only [List.mem_cons, List.not_mem_nil, or_false, not_or] at hp
  simp [Unmarked, hp, hd]

/-- What may stand in front of a verb: an index, or nothing. -/
def final (m : Option Index) (a : Letter) (cs : List Char) : List Char :=
  printIndex m ++ a.char :: cs

theorem final_undigited (m : Option Index) (a : Letter) (cs : List Char) :
    Undigited (final m a cs) := by
  cases m with
  | none => exact a.undigited cs
  | some m => simp [final, printIndex, Index.print, Undigited]

theorem final_head (m : Option Index) (a : Letter) (cs : List Char) {c : Char}
    (h : c ∈ ['+', '-', '#', ' ', '.', '*', '%']) : (final m a cs).head? ≠ some c := by
  cases m with
  | none =>
    have hc : c ∈ ['+', '-', '#', ' ', '.', '[', '*', '%'] := by
      simp only [List.mem_cons, List.not_mem_nil, or_false] at h ⊢
      tauto
    simpa [final, printIndex] using a.ne hc
  | some m =>
    simp only [final, printIndex, Index.print, List.cons_append, List.head?_cons, ne_eq,
      Option.some.injEq]
    rintro rfl
    simp at h

theorem final_rest (cursor : Cursor) (m : Option Index) (a : Letter) (cs : List Char) :
    (Reading.start cursor (final m a cs)).readIndex.rest = a.char :: cs := by
  cases m with
  | none =>
    rw [final, printIndex, List.nil_append, Reading.readIndex_none cursor (a.unbracketed cs)]
    rfl
  | some m => rw [final, printIndex, Reading.readIndex_some]

/-- The cursor behind a measure. -/
def behind (cursor : Cursor) : Option Measure → Cursor
  | some (.indirect i) => cursor.past i
  | _ => cursor

theorem behind_next (cursor : Cursor) (m : Option Measure) :
    (behind cursor m).next = follow cursor.next m := by
  rcases m with _ | m
  · rfl
  · cases m <;> rfl

end Grammar

open Grammar

/-! ## Directives -/

namespace Reading

theorem readVerb_final (cursor : Cursor) (m : Option Index) (a : Letter) (cs : List Char)
    {flags : Flags} (hf : flags.upper = false) (w p : Option Measure) :
    (start cursor (final m a cs)).readLastIndex.readVerb flags w p =
      ⟨.directive a.char ⟨.ofChar a.char, { flags with upper := Unicode.isUppercase a.char }, w, p,
        pick cursor.next m⟩, cursor.past (pick cursor.next m), cs⟩ := by
  have hp : a.char ≠ '%' := a.ne (by simp)
  have hup := Flags.set_upper hf (Unicode.isUppercase a.char)
  have hlast : (start cursor (final m a cs)).readLastIndex =
      (start cursor (final m a cs)).readIndex := rfl
  rw [hlast]
  cases m with
  | none =>
    rw [final, printIndex, List.nil_append, readIndex_none cursor (a.unbracketed cs)]
    simp [readVerb, start, countIndex, hp, hup, pick, Cursor.take, Cursor.touch, Cursor.past]
  | some m =>
    rw [final, printIndex, readIndex_some]
    simp [readVerb, countIndex, hp, hup, pick, Cursor.take, Cursor.touch, Cursor.past]

/-- A width is read back, if what stands behind it cannot be taken for one. -/
theorem readWidth_print (cursor : Cursor) (w : Width) {cs : List Char}
    (hb : w = .absent → Unbracketed cs) (hd : Undigited cs)
    (hs : w = .absent → cs.head? ≠ some '*') :
    (start cursor (w.print ++ cs)).readIndex.countIndex.readWidth =
      (w.measure cursor.next, start (behind cursor (w.measure cursor.next)) cs) := by
  cases w with
  | absent =>
    rw [Width.print, List.nil_append, readIndex_none cursor (hb rfl)]
    exact readWidth_none hd (hs rfl)
  | fixed n hn => exact readWidth_fixed cursor n hd
  | star m => exact readWidth_star cursor m cs

/-- What is behind a width: nothing but the precision, unless both are missing. Then the verb's
index has been read early. -/
theorem readVerb_precision (cursor : Cursor) (p : Precision) (m : Option Index) (a : Letter)
    (cs : List Char) :
    (start cursor (p.print ++ final m a cs)).readPrecision.1 = p.measure cursor.next ∧
      ∀ flags w q, (start cursor (p.print ++ final m a cs)).readPrecision.2.readLastIndex.readVerb
          flags w q =
        (start (behind cursor (p.measure cursor.next)) (final m a cs)).readLastIndex.readVerb
          flags w q := by
  cases p with
  | absent =>
    rw [Precision.print, List.nil_append, readPrecision_none (final_head m a cs (by simp))]
    exact ⟨rfl, fun _ _ _ => rfl⟩
  | point =>
    have hrest := final_rest cursor m a cs
    rw [← rest_countIndex] at hrest
    rw [Precision.print, List.cons_append, List.nil_append, readPrecision_point cursor
      (by rw [hrest]; exact a.undigited cs) (by rw [hrest]; simpa using a.ne (by simp))]
    refine ⟨rfl, fun flags w q => readVerb_early cursor ?_ flags w q⟩
    rw [final_rest]
    exact List.cons_ne_nil _ _
  | fixed n =>
    rw [Precision.print, readPrecision_fixed cursor n (final_undigited m a cs)]
    exact ⟨rfl, fun _ _ _ => rfl⟩
  | star k =>
    rw [readPrecision_star]
    exact ⟨rfl, fun _ _ _ => rfl⟩

end Reading

namespace Grammar

theorem precision_undigited (p : Precision) (m : Option Index) (a : Letter) (cs : List Char) :
    Undigited (p.print ++ final m a cs) := by
  cases p with
  | absent => exact final_undigited m a cs
  | _ => simp [Precision.print, Undigited]

theorem precision_head (p : Precision) (m : Option Index) (a : Letter) (cs : List Char) {c : Char}
    (h : c ∈ ['+', '-', '#', ' ', '*', '%']) : (p.print ++ final m a cs).head? ≠ some c := by
  cases p with
  | absent =>
    refine final_head m a cs ?_
    simp only [List.mem_cons, List.not_mem_nil, or_false] at h ⊢
    tauto
  | _ =>
    simp only [Precision.print, List.cons_append, List.head?_cons, ne_eq, Option.some.injEq]
    rintro rfl
    simp at h

/-- The cursor behind a directive. -/
def Form.behind (cursor : Cursor) (f : Form) : Cursor :=
  let width := f.width.measure cursor.next
  let precision := f.precision.measure (follow cursor.next width)
  (Grammar.behind (Grammar.behind cursor width) precision).past (f.directive cursor.next).arg

/-- What stands behind the marks of a directive. -/
def Form.body (f : Form) (cs : List Char) : List Char :=
  f.width.print ++ (f.precision.print ++ final f.index f.letter cs)

theorem Form.print_append (f : Form) (cs : List Char) :
    f.print ++ cs = f.marks.map Mark.char ++ f.body cs := by
  simp [Form.print, Form.body, final]

/-- The characters that the parts of a directive before its verb begin with. -/
def Opens (c : Char) : Prop := (c.isDigit = true ∧ c ≠ '0') ∨ c ∈ ['*', '[', '.']

theorem Opens.not_alpha {c : Char} (h : Opens c) : c.isAlpha = false := by
  rcases h with ⟨h, -⟩ | h
  · exact Unicode.not_isAlpha_of_isDigit h
  · simp only [List.mem_cons, List.not_mem_nil, or_false] at h
    rcases h with rfl | rfl | rfl <;> rfl

theorem Opens.not_mem {c : Char} (h : Opens c) : c ∉ ['+', '-', '#', ' ', '0', '%'] := by
  intro hm
  simp only [List.mem_cons, List.not_mem_nil, or_false] at hm
  rcases hm with rfl | rfl | rfl | rfl | rfl | rfl <;> simp [Opens, Char.isDigit] at h

/-- Behind the marks stands the verb alone, or one of the parts before it. -/
theorem Form.body_head (f : Form) (cs : List Char) :
    (∃ c rest, f.body cs = c :: rest ∧ Opens c) ∨
      (f.body cs = f.letter.char :: cs ∧ f.width = .absent ∧ f.precision = .absent ∧
        f.index = none) := by
  cases hw : f.width with
  | fixed n hn =>
    obtain ⟨d, ds, hds⟩ := List.exists_cons_of_ne_nil n.chars_ne_nil
    refine .inl ⟨d, _, by rw [Form.body, hw, Width.print, hds]; rfl, .inl ⟨?_, ?_⟩⟩
    · exact n.isDigit d (by simp [hds])
    · simpa [hds] using hn
  | star m =>
    cases m with
    | none => exact .inl ⟨'*', _, by rw [Form.body, hw]; rfl, by simp [Opens]⟩
    | some m => exact .inl ⟨'[', _, by rw [Form.body, hw]; rfl, by simp [Opens]⟩
  | absent =>
    cases hp : f.precision with
    | point => exact .inl ⟨'.', _, by rw [Form.body, hw, hp]; rfl, by simp [Opens]⟩
    | fixed n => exact .inl ⟨'.', _, by rw [Form.body, hw, hp]; rfl, by simp [Opens]⟩
    | star m => exact .inl ⟨'.', _, by rw [Form.body, hw, hp]; rfl, by simp [Opens]⟩
    | absent =>
      cases hi : f.index with
      | some m => exact .inl ⟨'[', _, by rw [Form.body, hw, hp, hi]; rfl, by simp [Opens]⟩
      | none =>
        exact .inr ⟨by rw [Form.body, hw, hp, hi]; rfl, rfl, rfl, rfl⟩

theorem Form.body_unmarked (f : Form) (cs : List Char) : Unmarked (f.body cs) := by
  rcases f.body_head cs with ⟨c, rest, hbody, ho⟩ | ⟨hbody, -⟩
  · intro d hd hm
    rw [hbody, List.head?_cons, Option.mem_def, Option.some.injEq] at hd
    subst hd
    refine ho.not_mem ?_
    simp only [List.mem_cons, List.not_mem_nil, or_false] at hm ⊢
    tauto
  · rw [hbody]
    exact f.letter.unmarked cs

end Grammar

namespace Read

/-- A width that is there leaves a fresh reading; the precision and the verb go on from it. -/
theorem general_of_width (f : Form) {cursor : Cursor} {cs : List Char}
    (h : (Reading.start cursor (f.body cs)).readIndex.countIndex.readWidth =
      (f.width.measure cursor.next, Reading.start
        (Grammar.behind cursor (f.width.measure cursor.next))
        (f.precision.print ++ final f.index f.letter cs))) :
    general (flagsOf f.marks) cursor (f.body cs) =
      ⟨.directive f.letter.char (f.directive cursor.next), f.behind cursor, cs⟩ := by
  obtain ⟨hp, hv⟩ := Reading.readVerb_precision
    (Grammar.behind cursor (f.width.measure cursor.next)) f.precision f.index f.letter cs
  rw [general]
  simp only [h]
  rw [hv, hp, Reading.readVerb_final _ _ _ _ rfl]
  simp only [behind_next]
  rfl

/-- With neither width nor precision the first bracket is the verb's own. -/
theorem general_of_absent (f : Form) (hw : f.width = .absent) (hp : f.precision = .absent)
    (cursor : Cursor) (cs : List Char) :
    general (flagsOf f.marks) cursor (f.body cs) =
      ⟨.directive f.letter.char (f.directive cursor.next), f.behind cursor, cs⟩ := by
  have hbody : f.body cs = final f.index f.letter cs := by
    rw [Form.body, hw, hp]
    rfl
  have hrest := final_rest cursor f.index f.letter cs
  rw [← Reading.rest_countIndex] at hrest
  have hwidth := Reading.readWidth_none (r :=
    (Reading.start cursor (final f.index f.letter cs)).readIndex.countIndex)
    (by rw [hrest]; exact f.letter.undigited cs)
    (by rw [hrest]; simpa using f.letter.ne (by simp))
  have hprecision := Reading.readPrecision_none (r :=
    (Reading.start cursor (final f.index f.letter cs)).readIndex.countIndex)
    (by rw [hrest]; simpa using f.letter.ne (by simp))
  rw [general, hbody]
  simp only [hwidth, hprecision]
  rw [Reading.readVerb_early cursor (by rw [final_rest]; exact List.cons_ne_nil _ _),
    Reading.readVerb_final _ _ _ _ rfl]
  simp [Form.directive, Form.behind, hw, hp, Width.measure, Precision.measure, follow,
    Grammar.behind]

/-- The general path reads a directive whatever its parts are. -/
theorem general_body (f : Form) (cursor : Cursor) (cs : List Char) :
    general (flagsOf f.marks) cursor (f.body cs) =
      ⟨.directive f.letter.char (f.directive cursor.next), f.behind cursor, cs⟩ := by
  by_cases h : f.width = .absent ∧ f.precision = .absent
  · exact general_of_absent f h.1 h.2 cursor cs
  · refine general_of_width f (Reading.readWidth_print cursor f.width ?_
      (precision_undigited _ _ _ _) (fun _ => precision_head _ _ _ _ (by simp)))
    -- A precision shields the verb's index.
    intro hw
    cases hp : f.precision with
    | absent => exact absurd ⟨hw, hp⟩ h
    | _ => simp [Precision.print, Unbracketed]

theorem plain_letter (flags : Flags) (hf : flags.upper = false) (cursor : Cursor) {c : Char}
    (hc : c.isAlpha = true) (rest : List Char) :
    plain flags cursor c rest =
      ⟨.directive c ⟨.ofChar c, { flags with upper := Unicode.isUppercase c }, none, none,
        cursor.next⟩, cursor.past cursor.next, rest⟩ := by
  have hup := Flags.set_upper hf c.isUpper
  rw [Unicode.isUppercase_of_isAlpha hc]
  simp [plain, hup, Cursor.take, Cursor.touch, Cursor.past]

theorem directive_of_readAll {cursor : Cursor} {cs : List Char} {flags : Flags} {c : Char}
    {rest : List Char} (h : Flags.empty.readAll cs = (flags, c :: rest)) (hc : c ≠ '%') :
    directive cursor cs =
      if c.isAlpha then plain flags cursor c rest else general flags cursor (c :: rest) := by
  simp only [directive, h]

theorem directive_form (f : Form) (cursor : Cursor) (cs : List Char) :
    directive cursor (f.print ++ cs) =
      ⟨.directive f.letter.char (f.directive cursor.next), f.behind cursor, cs⟩ := by
  have hread := readAll_marks f.marks (f.body_unmarked cs)
  rw [← f.print_append] at hread
  have hgeneral := general_body f cursor cs
  rcases f.body_head cs with ⟨c, rest, hbody, ho⟩ | ⟨hbody, hw, hp, hi⟩
  · rw [hbody] at hread hgeneral
    have hc : c ≠ '%' := fun h => ho.not_mem (by simp [h])
    rw [directive_of_readAll hread hc, ho.not_alpha, if_neg (by simp), hgeneral]
  · rw [hbody] at hread hgeneral
    rw [directive_of_readAll hread (f.letter.ne (by simp))]
    split
    · next ha =>
      rw [plain_letter _ rfl cursor ha]
      simp [Form.directive, Form.behind, hw, hp, hi, Width.measure, Precision.measure, follow, pick,
        Grammar.behind]
    · rw [hgeneral]

theorem directive_escape (marks : List Mark) (cursor : Cursor) (cs : List Char) :
    directive cursor (marks.map Mark.char ++ '%' :: cs) = ⟨.literal "%", cursor, cs⟩ := by
  have hu : Unmarked ('%' :: cs) := by simp [Unmarked]
  have hread := readAll_marks marks hu
  simp only [directive, hread]

end Read

/-! ## Items -/

namespace Grammar

/-- The cursor behind items. -/
def behindAll (cursor : Cursor) : List Item → Cursor
  | [] => cursor
  | .directive f :: items => behindAll (f.behind cursor) items
  | _ :: items => behindAll cursor items

theorem Form.behind_next (f : Form) (cursor : Cursor) :
    (f.behind cursor).next = (f.directive cursor.next).arg + 1 := rfl

/-- Items are scanned one by one, and then what follows them. -/
theorem pieces_items (items : List Item) (cursor : Cursor) (cs : List Char) :
    (DirectiveReader.standard.pieces cursor (print items ++ cs)).2 =
        (DirectiveReader.standard.pieces (behindAll cursor items) cs).2 ∧
      Piece.merge (DirectiveReader.standard.pieces cursor (print items ++ cs)).1 =
        Piece.merge (pieces cursor.next items ++
          (DirectiveReader.standard.pieces (behindAll cursor items) cs).1) := by
  induction items generalizing cursor with
  | nil => exact ⟨rfl, rfl⟩
  | cons item items ih =>
    have hprint : print (item :: items) ++ cs = item.print ++ (print items ++ cs) := by
      simp [print]
    rw [hprint]
    cases item with
    | literal text hne hfree =>
      obtain ⟨hn, hm⟩ :=
        DirectiveReader.standard.merge_pieces_literal cursor hfree (print items ++ cs)
      obtain ⟨ihn, ihm⟩ := ih cursor
      exact ⟨hn.trans ihn, by rw [Item.print, hm, ihm]; rfl⟩
    | escape marks =>
      obtain ⟨ihn, ihm⟩ := ih cursor
      have hread := Read.directive_escape marks cursor (print items ++ cs)
      simp only [Item.print, List.cons_append, List.append_assoc, List.nil_append]
      rw [DirectiveReader.pieces_percent]
      simp only [DirectiveReader.standard, hread]
      exact ⟨ihn, congrArg (Piece.cons (.literal "%")) ihm⟩
    | directive f =>
      obtain ⟨ihn, ihm⟩ := ih (f.behind cursor)
      have hread := Read.directive_form f cursor (print items ++ cs)
      simp only [Item.print, List.cons_append]
      rw [DirectiveReader.pieces_percent]
      simp only [DirectiveReader.standard, hread]
      exact ⟨ihn, congrArg (Piece.cons (.directive f.letter.char (f.directive cursor.next))) ihm⟩

/-! ## Arguments, runs and tokens -/

theorem needed_append (is js : List Nat) : needed (is ++ js) = max (needed is) (needed js) := by
  induction is with
  | nil => simp [needed]
  | cons i is ih =>
    simp only [needed, List.cons_append, List.foldr_cons] at ih ⊢
    rw [ih, Nat.max_assoc]

theorem behind_named (cursor : Cursor) (m : Option Measure) :
    (behind cursor m).named = max cursor.named (needed (argument? m).toList) := by
  rcases m with _ | m
  · simp [behind, argument?, needed]
  · cases m <;> simp [behind, argument?, needed, Cursor.past]

theorem Form.behind_named (f : Form) (cursor : Cursor) :
    (f.behind cursor).named = max cursor.named
      (needed (argumentsOf (.directive f.letter.char (f.directive cursor.next)))) := by
  have hargs : argumentsOf (.directive f.letter.char (f.directive cursor.next)) =
      (argument? (f.directive cursor.next).width).toList ++
        ((argument? (f.directive cursor.next).precision).toList ++
          [(f.directive cursor.next).arg]) := by
    cases hw : argument? (f.directive cursor.next).width <;>
      cases hp : argument? (f.directive cursor.next).precision <;> simp [argumentsOf, hw, hp]
  have hone (i : Nat) : needed [i] = i + 1 := Nat.max_zero _
  rw [hargs, needed_append, needed_append, hone]
  simp only [Form.behind, Cursor.past, Grammar.behind_named, Nat.max_assoc]
  rfl

theorem behindAll_named (items : List Item) (cursor : Cursor) :
    (behindAll cursor items).named =
      max cursor.named (needed ((pieces cursor.next items).flatMap argumentsOf)) := by
  induction items generalizing cursor with
  | nil => simp [behindAll, pieces, needed]
  | cons item items ih =>
    cases item with
    | literal text hne hfree => simpa [behindAll, pieces, argumentsOf] using ih cursor
    | escape marks => simpa [behindAll, pieces, argumentsOf] using ih cursor
    | directive f =>
      rw [behindAll, ih, pieces, List.flatMap_cons, needed_append, f.behind_named, f.behind_next,
        Nat.max_assoc]

theorem pieces_nonempty (next : Nat) (items : List Item) {s : String}
    (h : Piece.literal s ∈ pieces next items) : s ≠ "" := by
  induction items generalizing next with
  | nil => simp [pieces] at h
  | cons item items ih =>
    cases item with
    | literal text hne hfree =>
      rw [pieces, List.mem_cons, Piece.literal.injEq] at h
      rcases h with rfl | h
      · simpa using hne
      · exact ih next h
    | escape marks =>
      rw [pieces, List.mem_cons, Piece.literal.injEq] at h
      rcases h with rfl | h
      · decide
      · exact ih next h
    | directive f => exact ih _ (by simpa [pieces] using h)

theorem merge_literals (ps qs : List Piece) (h : ∀ p ∈ ps, p.isLiteral = true) :
    Piece.merge (ps ++ qs) = Piece.cons (.literal (Piece.textOf ps)) (Piece.merge qs) := by
  induction ps with
  | nil => simp
  | cons p ps ih =>
    cases p with
    | directive c d => simp at h
    | literal s =>
      rw [List.cons_append, Piece.merge_cons, ih (fun q hq => h q (List.mem_cons_of_mem _ hq)),
        Piece.textOf_cons, Piece.text, Piece.cons_literal_append]

theorem merge_eq_runs (ps : List Piece) (h : ∀ s, Piece.literal s ∈ ps → s ≠ "") :
    Piece.merge ps = runs ps := by
  fun_induction runs ps with
  | case1 => rfl
  | case2 c d ps ih =>
    rw [Piece.merge_cons, ih (fun s hs => h s (List.mem_cons_of_mem _ hs))]
    rfl
  | case3 s ps ih =>
    -- A run ends where the next piece is no literal, so nothing joins it from behind.
    have hrest : ∀ t, Piece.literal t ∈ ps.dropWhile Piece.isLiteral → t ≠ "" := by
      intro t ht
      exact h t (List.mem_cons_of_mem _ ((List.dropWhile_suffix _).subset ht))
    have hs : s ≠ "" := h s (by simp)
    have hrun : s ++ Piece.textOf (ps.takeWhile Piece.isLiteral) ≠ "" :=
      fun he => hs (String.append_eq_empty_iff.mp he).1
    have hhead : ∀ p ∈ (Piece.merge (ps.dropWhile Piece.isLiteral)).head?, p.isLiteral = false := by
      have hd := List.head?_dropWhile_not Piece.isLiteral ps
      cases hq : ps.dropWhile Piece.isLiteral with
      | nil => simp
      | cons q qs =>
        rw [hq, List.head?_cons] at hd
        cases q with
        | literal t => simp at hd
        | directive c d => simp
    have hsplit := merge_literals (ps.takeWhile Piece.isLiteral) (ps.dropWhile Piece.isLiteral)
      (List.all_eq_true.mp List.all_takeWhile)
    rw [List.takeWhile_append_dropWhile] at hsplit
    rw [Piece.merge_cons, hsplit, ← Piece.cons_literal_append,
      Piece.cons_literal_of_apart hrun hhead, ih hrest]

theorem layout_eq_tokensOf (ps : List Piece) : Piece.layout 0 ps = tokensOf ps := by
  rw [Piece.layout_eq_mapIdx, tokensOf]
  simp

end Grammar

/-- The compiler is correct on all well-formed formats. -/
theorem Template.compile_print (items : List Item) :
    Template.compile (String.ofList (Grammar.print items)) = Grammar.template items := by
  obtain ⟨hn, hm⟩ := pieces_items items {} []
  rw [List.append_nil, DirectiveReader.pieces_nil] at hn hm
  rw [List.append_nil] at hm
  have hnamed := behindAll_named items {}
  have hruns := merge_eq_runs (pieces 0 items) (fun s hs => pieces_nonempty 0 items hs)
  rw [Template.compile_eq, String.toList_ofList, Template.ofPieces_congr hm, hn, hnamed]
  simp only [Template.ofPieces, Grammar.template, hruns, layout_eq_tokensOf,
    Piece.literalBytes_eq_sum,
    Piece.textOf, Nat.zero_max]

end PercentFormat
