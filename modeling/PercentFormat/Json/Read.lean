import PercentFormat.Json.Numeral
import PercentFormat.Json.Outline
import PercentFormat.Text.Decimal
import PercentFormat.Text.Hex

/-! # Reading JSON

A reader that keeps to the grammar and makes an outline of what it reads. A text is a value when its
outline has no fault. -/

namespace PercentFormat.Json

namespace Reader

def isBlank (c : Char) : Bool := c == ' ' || c == '\t' || c == '\n' || c == '\r'

def skipBlank (cs : List Char) : List Char := cs.dropWhile isBlank

/-! ## Strings -/

def unit? : List Char → Option (Nat × List Char)
  | a :: b :: c :: d :: rest => do
    let a ← Hex.value? a
    let b ← Hex.value? b
    let c ← Hex.value? c
    let d ← Hex.value? d
    some (((a * 16 + b) * 16 + c) * 16 + d, rest)
  | _ => none

def isLead (n : Nat) : Bool := decide (0xd800 ≤ n ∧ n < 0xdc00)

def isTrail (n : Nat) : Bool := decide (0xdc00 ≤ n ∧ n < 0xe000)

def pair (lead trail : Nat) : Char :=
  Char.ofNat (0x10000 + (lead - 0xd800) * 0x400 + (trail - 0xdc00))

/-- The second half of a pair of escapes. -/
def trail? : List Char → Option (Nat × List Char)
  | '\\' :: 'u' :: rest => (unit? rest).filter fun p => isTrail p.1
  | _ => none

def shortEscape? (c : Char) : Option Char :=
  if c = '"' ∨ c = '\\' ∨ c = '/' then some c
  else if c = 'b' then some '\x08'
  else if c = 't' then some '\t'
  else if c = 'n' then some '\n'
  else if c = 'f' then some '\x0c'
  else if c = 'r' then some '\r'
  else none

/-- The character that an escape stands for, read behind its backslash. Surrogates stand in pairs;
one without the other stands for no character. -/
def escape? : List Char → Option (Option Char × List Char)
  | [] => none
  | c :: rest =>
    if c = 'u' then
      match unit? rest with
      | none => none
      | some (n, rest) =>
        if isLead n then
          match trail? rest with
          | some (m, rest) => some (some (pair n m), rest)
          | none => some (none, rest)
        else some (if isTrail n then none else some (Char.ofNat n), rest)
    else (shortEscape? c).map fun d => (some d, rest)

theorem length_unit_lt {cs rest : List Char} {n : Nat} (h : unit? cs = some (n, rest)) :
    rest.length < cs.length := by
  unfold unit? at h
  split at h
  · simp only [Option.bind_eq_bind, Option.bind_eq_some_iff, Option.some.injEq,
      Prod.mk.injEq] at h
    obtain ⟨_, _, _, _, _, _, _, _, _, rfl⟩ := h
    simp only [List.length_cons]
    omega
  · simp at h

theorem length_trail_lt {cs rest : List Char} {n : Nat} (h : trail? cs = some (n, rest)) :
    rest.length < cs.length := by
  unfold trail? at h
  split at h
  · have hu := length_unit_lt (Option.filter_eq_some_iff.1 h).1
    simp only [List.length_cons]
    omega
  · simp at h

theorem length_escape_lt {cs rest : List Char} {c : Option Char}
    (h : escape? cs = some (c, rest)) : rest.length < cs.length := by
  cases cs with
  | nil => simp [escape?] at h
  | cons a as =>
    simp only [escape?] at h
    split at h
    · split at h
      · simp at h
      · rename_i hu
        have h₁ := length_unit_lt hu
        split at h
        · split at h
          · rename_i ht
            have h₂ := length_trail_lt ht
            simp only [Option.some.injEq, Prod.mk.injEq] at h
            obtain ⟨_, rfl⟩ := h
            simp only [List.length_cons]
            omega
          · simp only [Option.some.injEq, Prod.mk.injEq] at h
            obtain ⟨_, rfl⟩ := h
            simp only [List.length_cons]
            omega
        · simp only [Option.some.injEq, Prod.mk.injEq] at h
          obtain ⟨_, rfl⟩ := h
          simp only [List.length_cons]
          omega
    · simp only [Option.map_eq_some_iff, Prod.mk.injEq] at h
      obtain ⟨_, _, _, rfl⟩ := h
      simp

/-- A character put in front of a text, if both are there. -/
def consChar (c : Option Char) (text : Option (List Char)) : Option (List Char) := do
  some ((← c) :: (← text))

/-- The characters of a string, read behind its opening quote. A string with a lone surrogate has no
characters, but an end. -/
def stringBody : List Char → Option (Option (List Char) × List Char)
  | [] => none
  | c :: rest =>
    if c = '"' then some (some [], rest)
    else if c = '\\' then
      match _h : escape? rest with
      | none => none
      | some (d, rest') => (stringBody rest').map fun p => (consChar d p.1, p.2)
    else if c.toNat < 0x20 then none
    else (stringBody rest).map fun p => (consChar (some c) p.1, p.2)
termination_by cs => cs.length
decreasing_by
  · exact Nat.lt_succ_of_lt (length_escape_lt _h)
  · exact Nat.lt_succ_self _

/-! ## Numbers -/

def digits (cs : List Char) : List Char × List Char := cs.span Char.isDigit

/-- The digits before the point. Zero stands alone. -/
def wholeDigits? (cs : List Char) : Option (List Char × List Char) :=
  match digits cs with
  | ([], _) => none
  | ('0' :: _ :: _, _) => none
  | r => some r

/-- The digits behind the point, if there is one. -/
def fraction? (cs : List Char) : Option (List Char × List Char) :=
  match cs with
  | '.' :: rest =>
    match digits rest with
    | ([], _) => none
    | r => some r
  | _ => some ([], cs)

/-- The exponent, if there is one. -/
def exponent? (cs : List Char) : Option (Option Int × List Char) :=
  match cs with
  | e :: rest =>
    if e = 'e' ∨ e = 'E' then
      let (negative, rest) := match rest with
        | '-' :: rest => (true, rest)
        | '+' :: rest => (false, rest)
        | _ => (false, rest)
      match digits rest with
      | ([], _) => none
      | (ds, rest) =>
        let n : Int := Decimal.valueFrom 0 ds
        some (some (if negative then -n else n), rest)
    else some (none, cs)
  | [] => some (none, [])

def numeral? (cs : List Char) : Option (Numeral × List Char) := do
  let (negative, rest) := match cs with
    | '-' :: rest => (true, rest)
    | _ => (false, cs)
  let (whole, rest) ← wholeDigits? rest
  let (fraction, rest) ← fraction? rest
  let (exponent, rest) ← exponent? rest
  some (⟨negative, whole, fraction, exponent⟩, rest)

/-! ## Values -/

/-- Takes a word off the head of a text. -/
def word? (w : List Char) (cs : List Char) : Option (List Char) :=
  if w.isPrefixOf cs then some (cs.drop w.length) else none

def orBroken (taken : Option (Outline × List Char)) : Outline × Option (List Char) :=
  match taken with
  | some (o, rest) => (o, some rest)
  | none => (.broken, none)

mutual

/-- The outline of the value at the head of a text, and the text behind it unless the outline
breaks off. -/
def value (fuel : Nat) (cs : List Char) : Outline × Option (List Char) :=
  match fuel with
  | 0 => (.broken, none)
  | fuel + 1 =>
    match cs with
    | [] => (.broken, none)
    | c :: rest =>
      if c = 'n' then orBroken ((word? ['u', 'l', 'l'] rest).map (.null, ·))
      else if c = 't' then orBroken ((word? ['r', 'u', 'e'] rest).map (.bool true, ·))
      else if c = 'f' then orBroken ((word? ['a', 'l', 's', 'e'] rest).map (.bool false, ·))
      else if c = '"' then
        orBroken ((stringBody rest).map fun p => (.string (p.1.map String.ofList), p.2))
      else if c = '[' then
        match skipBlank rest with
        | ']' :: rest => (.array [], some rest)
        | rest =>
          let (x, left) := value fuel rest
          let (xs, left) := items fuel left
          (.array (x :: xs), left)
      else if c = '\x7b' then
        match skipBlank rest with
        | '\x7d' :: rest => (.object [], some rest)
        | rest =>
          let (m, left) := member fuel rest
          let (ms, left) := members fuel left
          (.object (m :: ms), left)
      else orBroken ((numeral? cs).map fun p => (.number p.1.number?, p.2))

/-- The items behind one that was read, to the end of the array. -/
def items (fuel : Nat) (left : Option (List Char)) : List Outline × Option (List Char) :=
  match fuel with
  | 0 => ([.broken], none)
  | fuel + 1 =>
    match left.map skipBlank with
    | none => ([], none)
    | some (']' :: rest) => ([], some rest)
    | some (',' :: rest) =>
      let (x, left) := value fuel (skipBlank rest)
      let (xs, left) := items fuel left
      (x :: xs, left)
    | some _ => ([.broken], none)

def member (fuel : Nat) (cs : List Char) : (Option String × Outline) × Option (List Char) :=
  match fuel with
  | 0 => ((none, .broken), none)
  | fuel + 1 =>
    match cs with
    | '"' :: rest =>
      match stringBody rest with
      | none => ((none, .broken), none)
      | some (name, rest) =>
        let name := name.map String.ofList
        match skipBlank rest with
        | ':' :: rest =>
          let (o, left) := value fuel (skipBlank rest)
          ((name, o), left)
        | _ => ((name, .broken), none)
    | _ => ((none, .broken), none)

/-- The members behind one that was read, to the end of the object. -/
def members (fuel : Nat) (left : Option (List Char)) :
    List (Option String × Outline) × Option (List Char) :=
  match fuel with
  | 0 => ([(none, .broken)], none)
  | fuel + 1 =>
    match left.map skipBlank with
    | none => ([], none)
    | some ('\x7d' :: rest) => ([], some rest)
    | some (',' :: rest) =>
      let (m, left) := member fuel (skipBlank rest)
      let (ms, left) := members fuel left
      (m :: ms, left)
    | some _ => ([(none, .broken)], none)

end

end Reader

/-- The outline of the value that a text begins with, and whether nothing but white space stands
behind it. -/
def outlineOf (cs : List Char) : Outline × Bool :=
  let (o, left) := Reader.value (cs.length + 1) (Reader.skipBlank cs)
  (o, left.any fun rest => (Reader.skipBlank rest).isEmpty)

def parse? (cs : List Char) : Option Json :=
  match outlineOf cs with
  | (o, true) => o.value? Outline.maxDepth
  | (_, false) => none

end PercentFormat.Json
