import InputScript.Json.Skip

/-!
# `InputScript.Json.Reader`: reading values of a known kind

A reader takes a value of one kind off the front of a text, so what it leaves is always
shorter. There are readers for texts, whole numbers, values that may be null, lists and
records.

A record is an object whose fields may come in any order. Fields that are not given keep
the values of a default, fields that the record does not have are skipped, and a field
must not be given twice. A record may also be an array of its fields in their declared
order, of which the last ones may be missing.

`misfit` is the fault of a value of another kind. The value is still read as far as it
takes to tell that it is well formed, but containers are not looked into.
-/

set_option autoImplicit false

namespace InputScript.Json

variable {α β : Type}

/-- Reads a value off the front of a text. -/
structure Reader (α : Type) where
  /-- The value and what follows it. -/
  run : List Char → Except Fault (α × List Char)
  /-- Reading takes something off the text. -/
  shorter : ∀ {cs : List Char} {a : α} {rest : List Char},
    run cs = .ok (a, rest) → rest.length < cs.length

/-- What is wrong with a value that begins with a character of another kind. -/
def misfit (cs : List Char) : Fault :=
  match cs with
  | [] => .unfinished
  | '[' :: _ => .unsuitable
  | '\x7b' :: _ => .unsuitable
  | 'n' :: rest => ofWord (word ['u', 'l', 'l'] rest)
  | 't' :: rest => ofWord (word ['r', 'u', 'e'] rest)
  | 'f' :: rest => ofWord (word ['a', 'l', 's', 'e'] rest)
  | '"' :: rest =>
    match Text.read rest with
    | .error fault => fault
    | .ok _ => .unsuitable
  | c :: rest =>
    if c = '-' || Number.isDigit c then
      match Numeral.read (c :: rest) with
      | .error fault => fault
      | .ok _ => .unsuitable
    else .malformed
where
  /-- A word that is complete is still of the wrong kind. -/
  ofWord : Except Fault (List Char) → Fault
    | .error fault => fault
    | .ok _ => .unsuitable

namespace Reader

/-- Applies a function to what is read. -/
def map (f : α → β) (r : Reader α) : Reader β where
  run cs :=
    match r.run cs with
    | .error fault => .error fault
    | .ok (a, rest) => .ok (f a, rest)
  shorter {cs b rest} h := by
    split at h
    · cases h
    · rename_i hrun
      cases h
      exact r.shorter hrun

/-! ### Single values -/

/-- Reads a text. -/
def text : Reader String where
  run cs :=
    match dropBlanks cs with
    | '"' :: rest =>
      match Text.read rest with
      | .error fault => .error fault
      | .ok (s, after) => .ok (String.ofList s, after)
    | other => .error (misfit other)
  shorter {cs s rest} h := by
    split at h
    · rename_i hquote
      split at h
      · cases h
      · rename_i hread
        cases h
        exact Nat.lt_trans (Text.length_lt_of_read hread) (length_lt_of_dropBlanks hquote)
    · cases h

/-- Reads a whole number of 64 bits. -/
def natural64 : Reader UInt64 where
  run cs :=
    match dropBlanks cs with
    | [] => .error .unfinished
    | c :: others =>
      if c = '-' || Number.isDigit c then
        match Numeral.read (c :: others) with
        | .error fault => .error fault
        | .ok (x, rest) =>
          match x.natural64? with
          | none => .error .unsuitable
          | some n => .ok (n, rest)
      else .error (misfit (c :: others))
  shorter {cs n rest} h := by
    split at h
    · cases h
    · rename_i hdigit
      have hle := length_dropBlanks_le cs
      rw [hdigit] at hle
      split at h
      · split at h
        · cases h
        · rename_i hread
          split at h <;> cases h
          exact Nat.lt_of_lt_of_le (Numeral.length_lt_of_read hread) hle
      · cases h

/-- Reads a value that may be null. -/
def nullable (r : Reader α) : Reader (Option α) where
  run cs :=
    match dropBlanks cs with
    | 'n' :: rest =>
      match word ['u', 'l', 'l'] rest with
      | .error fault => .error fault
      | .ok after => .ok (none, after)
    | other =>
      match r.run other with
      | .error fault => .error fault
      | .ok (a, rest) => .ok (some a, rest)
  shorter {cs a rest} h := by
    split at h
    · rename_i hnull
      split at h
      · cases h
      · rename_i hword
        cases h
        exact Nat.lt_of_le_of_lt (length_word_le hword) (length_lt_of_dropBlanks hnull)
    · split at h
      · cases h
      · rename_i hrun
        cases h
        exact Nat.lt_of_lt_of_le (r.shorter hrun) (length_dropBlanks_le cs)

/-! ### Items of arrays and objects -/

/-- What comes next inside a container. -/
inductive Next where
  /-- The container ends before this text. -/
  | closed (rest : List Char)
  /-- An item begins with this text. -/
  | item (cs : List Char)

/-- The text that is left. -/
def Next.text : Next → List Char
  | closed rest => rest
  | item cs => cs

/-- Looks for the first element after the opening bracket. -/
def firstElement (cs : List Char) : Except Fault Next :=
  match dropBlanks cs with
  | [] => .error .unfinished
  | ']' :: rest => .ok (.closed rest)
  | other => .ok (.item other)

/-- Looks for another element after one. -/
def nextElement (cs : List Char) : Except Fault Next :=
  match dropBlanks cs with
  | [] => .error .unfinished
  | ']' :: rest => .ok (.closed rest)
  | ',' :: rest =>
    match dropBlanks rest with
    | [] => .error .unfinished
    -- A comma has to be followed by an element.
    | ']' :: _ => .error .malformed
    | other => .ok (.item other)
  | _ => .error .malformed

/-- Looks for the first key after the opening brace; its opening quote is taken off. -/
def firstKey (cs : List Char) : Except Fault Next :=
  match dropBlanks cs with
  | [] => .error .unfinished
  | '\x7d' :: rest => .ok (.closed rest)
  | '"' :: rest => .ok (.item rest)
  | _ => .error .malformed

/-- Looks for another key after a value; its opening quote is taken off. -/
def nextKey (cs : List Char) : Except Fault Next :=
  match dropBlanks cs with
  | [] => .error .unfinished
  | '\x7d' :: rest => .ok (.closed rest)
  | ',' :: rest =>
    match dropBlanks rest with
    | [] => .error .unfinished
    | '"' :: key => .ok (.item key)
    | _ => .error .malformed
  | _ => .error .malformed

/-- Looking for the first element makes no text longer. -/
theorem length_firstElement_le {cs : List Char} {next : Next}
    (h : firstElement cs = .ok next) : next.text.length ≤ cs.length := by
  unfold firstElement at h
  have hle := length_dropBlanks_le cs
  split at h
  · cases h
  · rename_i hclose
    cases h
    exact Nat.le_of_lt (length_lt_of_dropBlanks hclose)
  · cases h
    exact hle

/-- Looking for another element takes a comma or a bracket off. -/
theorem length_nextElement_lt {cs : List Char} {next : Next}
    (h : nextElement cs = .ok next) : next.text.length < cs.length := by
  unfold nextElement at h
  split at h
  · cases h
  · rename_i hclose
    cases h
    exact length_lt_of_dropBlanks hclose
  · rename_i rest hcomma
    have hlt := length_lt_of_dropBlanks hcomma
    have hle := length_dropBlanks_le rest
    split at h
    · cases h
    · cases h
    · cases h
      exact Nat.lt_of_le_of_lt hle hlt
  · cases h

/-- Looking for the first key takes a quote or a brace off. -/
theorem length_firstKey_lt {cs : List Char} {next : Next} (h : firstKey cs = .ok next) :
    next.text.length < cs.length := by
  unfold firstKey at h
  split at h
  · cases h
  · rename_i hclose
    cases h
    exact length_lt_of_dropBlanks hclose
  · rename_i hquote
    cases h
    exact length_lt_of_dropBlanks hquote
  · cases h

/-- Looking for another key takes something off. -/
theorem length_nextKey_lt {cs : List Char} {next : Next} (h : nextKey cs = .ok next) :
    next.text.length < cs.length := by
  unfold nextKey at h
  split at h
  · cases h
  · rename_i hclose
    cases h
    exact length_lt_of_dropBlanks hclose
  · rename_i hcomma
    have hlt := length_lt_of_dropBlanks hcomma
    split at h
    · cases h
    · rename_i hquote
      cases h
      exact Nat.lt_trans (length_lt_of_dropBlanks hquote) hlt
    · cases h
  · cases h

/-! ### Lists -/

/-- Reads the elements of an array from what comes next in it. -/
def elements (r : Reader α) (next : Next) : Except Fault (List α × List Char) :=
  match next with
  | .closed rest => .ok ([], rest)
  | .item cs =>
    match _hrun : r.run cs with
    | .error fault => .error fault
    | .ok (a, rest) =>
      match _hnext : nextElement rest with
      | .error fault => .error fault
      | .ok following =>
        match elements r following with
        | .error fault => .error fault
        | .ok (as, after) => .ok (a :: as, after)
termination_by next.text.length
decreasing_by
  have := r.shorter _hrun
  have := length_nextElement_lt _hnext
  simp only [Next.text] at *
  omega

/-- Reading elements makes no text longer. -/
theorem length_elements_le {r : Reader α} {next : Next} {as : List α} {rest : List Char}
    (h : elements r next = .ok (as, rest)) : rest.length ≤ next.text.length := by
  fun_induction elements r next generalizing as rest with
  | case1 =>
    cases h
    exact Nat.le_refl _
  | case2 => cases h
  | case3 => cases h
  | case4 => cases h
  | case5 cs a after hrun following hnext as' last hrest ih =>
    cases h
    have := ih hrest
    have := length_nextElement_lt hnext
    have := r.shorter hrun
    simp only [Next.text] at *
    omega

/-- Reads a list. -/
def list (r : Reader α) : Reader (List α) where
  run cs :=
    match dropBlanks cs with
    | '[' :: rest =>
      match firstElement rest with
      | .error fault => .error fault
      | .ok next => elements r next
    | other => .error (misfit other)
  shorter {cs as rest} h := by
    split at h
    · rename_i hopen
      split at h
      · cases h
      · rename_i hfirst
        have := length_lt_of_dropBlanks hopen
        have := length_firstElement_le hfirst
        have := length_elements_le h
        omega
    · cases h

/-! ### Records -/

end Reader

/-- A field of a record: its name, and how its value is read into a record. -/
structure RecordField (α : Type) where
  name : String
  reader : α → Reader α

/-- The field of a name, with the reader of its value and the way to set it. -/
def RecordField.of (name : String) (reader : Reader β) (set : α → β → α) : RecordField α :=
  ⟨name, fun a => reader.map (set a)⟩

namespace Reader

/-- Reads the fields of a record in their order from what comes next in an array, and
then the end of the array. -/
def positions (fields : List (RecordField α)) (a : α) (next : Next) :
    Except Fault (α × List Char) :=
  match fields, next with
  | _, .closed rest => .ok (a, rest)
  | [], .item _ => .error .malformed
  | field :: fields, .item cs =>
    match (field.reader a).run cs with
    | .error fault => .error fault
    | .ok (a, rest) =>
      match afterField fields rest with
      | .error fault => .error fault
      | .ok following => positions fields a following
where
  /-- What comes after a field: after the last one only the end will do. -/
  afterField (fields : List (RecordField α)) (cs : List Char) : Except Fault Next :=
    if fields.isEmpty then
      match dropBlanks cs with
      | [] => .error .unfinished
      | ']' :: rest => .ok (.closed rest)
      | _ => .error .malformed
    else nextElement cs

/-- Reads the value of a key: into the record if it has such a field, over it if not. -/
def member (fields : List (RecordField α)) (seen : List String) (a : α) (key : String)
    (cs : List Char) : Except Fault (α × List Char) :=
  match fields.find? fun field => field.name == key with
  | none =>
    match colon cs with
    | .error fault => .error fault
    | .ok value =>
      match skipValue [] value with
      | .error fault => .error fault
      | .ok rest => .ok (a, rest)
  | some field =>
    -- A repeated field is refused before its value is looked at.
    if seen.contains key then .error .unsuitable
    else
      match colon cs with
      | .error fault => .error fault
      | .ok value => (field.reader a).run value

/-- Reading a member takes something off. -/
theorem length_member_lt {fields : List (RecordField α)} {seen : List String} {a b : α}
    {key : String} {cs rest : List Char} (h : member fields seen a key cs = .ok (b, rest)) :
    rest.length < cs.length := by
  unfold member at h
  split at h
  · split at h
    · cases h
    · rename_i hcolon
      split at h
      · cases h
      · rename_i hskip
        cases h
        exact Nat.lt_trans (length_lt_of_skipValue hskip) (length_lt_of_colon hcolon)
  · rename_i field _
    split at h
    · cases h
    · split at h
      · cases h
      · rename_i hcolon
        exact Nat.lt_trans ((field.reader a).shorter h) (length_lt_of_colon hcolon)

/-- Reads the members of an object from what comes next in it. The keys that were seen
before are given. -/
def members (fields : List (RecordField α)) (seen : List String) (a : α) (next : Next) :
    Except Fault (α × List Char) :=
  match next with
  | .closed rest => .ok (a, rest)
  | .item cs =>
    match _hkey : Text.read cs with
    | .error fault => .error fault
    | .ok (key, afterKey) =>
      match _hmember : member fields seen a (String.ofList key) afterKey with
      | .error fault => .error fault
      | .ok (b, rest) =>
        match _hnext : nextKey rest with
        | .error fault => .error fault
        | .ok following => members fields (String.ofList key :: seen) b following
termination_by next.text.length
decreasing_by
  have := Text.length_lt_of_read _hkey
  have := length_member_lt _hmember
  have := length_nextKey_lt _hnext
  simp only [Next.text] at *
  omega

/-- Looking past a field takes something off. -/
theorem length_afterField_lt {fields : List (RecordField α)} {cs : List Char} {next : Next}
    (h : positions.afterField fields cs = .ok next) : next.text.length < cs.length := by
  unfold positions.afterField at h
  split at h
  · split at h
    · cases h
    · rename_i hclose
      cases h
      exact length_lt_of_dropBlanks hclose
    · cases h
  · exact length_nextElement_lt h

/-- Reading fields in order makes no text longer. -/
theorem length_positions_le {fields : List (RecordField α)} {a b : α} {next : Next}
    {rest : List Char} (h : positions fields a next = .ok (b, rest)) :
    rest.length ≤ next.text.length := by
  fun_induction positions fields a next with
  | case1 =>
    cases h
    exact Nat.le_refl _
  | case2 => cases h
  | case3 => cases h
  | case4 => cases h
  | case5 a field fields cs a' after hrun following hafter ih =>
    have := ih h
    have := length_afterField_lt hafter
    have := (field.reader a).shorter hrun
    simp only [Next.text] at *
    omega

/-- Reading members makes no text longer. -/
theorem length_members_le {fields : List (RecordField α)} {seen : List String} {a b : α}
    {next : Next} {rest : List Char} (h : members fields seen a next = .ok (b, rest)) :
    rest.length ≤ next.text.length := by
  fun_induction members fields seen a next with
  | case1 =>
    cases h
    exact Nat.le_refl _
  | case2 => cases h
  | case3 => cases h
  | case4 => cases h
  | case5 seen a cs key afterKey hkey b' after hmember following hnext ih =>
    have := ih h
    have := Text.length_lt_of_read hkey
    have := length_member_lt hmember
    have := length_nextKey_lt hnext
    simp only [Next.text] at *
    omega

/-- Reads a record, from a default for the fields that are not given. -/
def record (fields : List (RecordField α)) (default : α) : Reader α where
  run cs :=
    match dropBlanks cs with
    | '\x7b' :: rest =>
      match firstKey rest with
      | .error fault => .error fault
      | .ok next => members fields [] default next
    | '[' :: rest =>
      match firstElement rest with
      | .error fault => .error fault
      | .ok next => positions fields default next
    | other => .error (misfit other)
  shorter {cs a rest} h := by
    split at h
    · rename_i hopen
      split at h
      · cases h
      · rename_i hfirst
        have := length_lt_of_dropBlanks hopen
        have := length_firstKey_lt hfirst
        have := length_members_le h
        omega
    · rename_i hopen
      split at h
      · cases h
      · rename_i hfirst
        have := length_lt_of_dropBlanks hopen
        have := length_firstElement_le hfirst
        have := length_positions_le h
        omega
    · cases h

end Reader

/-- Reads a whole text: one value, with blanks around it and nothing else. -/
def readAll (r : Reader α) (s : String) : Except Fault α :=
  match r.run s.toList with
  | .error fault => .error fault
  | .ok (a, rest) => if (dropBlanks rest).isEmpty then .ok a else .error .malformed

end InputScript.Json
