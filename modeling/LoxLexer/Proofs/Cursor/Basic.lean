import LoxLexer.Proofs.Cursor.Octets
import LoxLexer.Source.Event

/-! # Scanning by a cursor

A scan can be made in place: a cursor goes over the octets of a source, looking at most two ahead,
and cuts lexemes out between the octet it started from and the one it has come to. In the middle of
a character it may read but not cut. What it meets it hands over at once, and has in its hands what
is made of it. Whatever must not happen on the way is a breach, which ends the scan. -/

namespace LoxLexer

/-- What must not happen in a scan by a cursor. -/
inductive Breach where
  /-- An octet is read at the end of the source or past it. -/
  | pastEnd (position : Nat)
  /-- A slice has its ends out of order, past the end or inside a character. -/
  | badSlice (start stop : Nat)
  /-- The first character is wanted of a text that has none. -/
  | noCharacter (position : Nat)
  /-- The value is wanted of a text that is no numeral. -/
  | notNumeral (text : String)
  /-- A line is counted beyond one more than there are octets. -/
  | tooManyLines (line : Nat)
  deriving DecidableEq, Repr

/-- Where two steps go without a breach, the first does, and the second does on what it leaves. -/
theorem Breach.exists_of_bind_eq_ok {α β : Type} {first : Except Breach α}
    {next : α → Except Breach β} {result : β} (done : first >>= next = .ok result) :
    ∃ found, first = .ok found ∧ next found = .ok result := by
  cases first with
  | error breach => cases done
  | ok found => exact ⟨found, rfl, done⟩

theorem Breach.ok_bind {α β : Type} (found : α) (next : α → Except Breach β) :
    (Except.ok found >>= next) = next found :=
  rfl

/-- The numeral that is written so: digits, or digits on both sides of a point. -/
def Numeral.ofText? (cs : List Char) : Option Numeral :=
  let whole := cs.takeWhile Char.isDigit
  match cs.dropWhile Char.isDigit with
  | [] => if whole = [] then none else some ⟨whole, []⟩
  | point :: fraction =>
    if point = '.' ∧ whole ≠ [] ∧ fraction ≠ [] ∧ fraction.all Char.isDigit then
      some ⟨whole, fraction⟩
    else none

/-- What is read as a numeral is proper, and written as it was read. -/
theorem Numeral.isProper_of_ofText? {cs : List Char} {numeral : Numeral}
    (read : ofText? cs = some numeral) : numeral.IsProper ∧ numeral.text = cs := by
  have whole_digit : ∀ c ∈ cs.takeWhile Char.isDigit, c.isDigit = true :=
    fun c member => List.mem_takeWhile_imp member
  have parts := List.takeWhile_append_dropWhile (p := Char.isDigit) (l := cs)
  unfold ofText? at read
  simp only at read
  split at read
  · rename_i nothing
    split at read
    · cases read
    · rename_i some_whole
      cases read
      rw [nothing, List.append_nil] at parts
      exact ⟨⟨some_whole, whole_digit, List.forall_mem_nil _⟩, parts⟩
  · rename_i point fraction pointed
    split at read
    · rename_i form
      obtain ⟨rfl, some_whole, some_fraction, fraction_digit⟩ := form
      cases read
      refine ⟨⟨some_whole, whole_digit, List.all_eq_true.mp fraction_digit⟩, ?_⟩
      obtain ⟨digit, digits, rfl⟩ := List.exists_cons_of_ne_nil some_fraction
      rw [pointed] at parts
      exact parts
    · cases read

/-- A proper numeral is read from its own text. -/
theorem Numeral.ofText?_text {numeral : Numeral} (proper : numeral.IsProper) :
    ofText? numeral.text = some numeral := by
  obtain ⟨whole, fraction⟩ := numeral
  have some_whole : whole ≠ [] := proper.whole_ne_nil
  cases fraction with
  | nil =>
      have nothing : ∀ c ∈ ([] : List Char).head?, c.isDigit = false :=
        fun c first => (Option.not_mem_none c first).elim
      obtain ⟨taken, dropped⟩ := span_append proper.whole_digit nothing
      rw [List.append_nil] at taken dropped
      unfold ofText?
      simp only [text, taken, dropped, some_whole, ↓reduceIte]
  | cons digit digits =>
      have point : ∀ c ∈ ('.' :: digit :: digits).head?, c.isDigit = false := by
        intro c first
        obtain rfl : '.' = c := Option.some.inj first
        rfl
      obtain ⟨taken, dropped⟩ := span_append proper.whole_digit point
      have fraction_digit : (digit :: digits).all Char.isDigit = true :=
        List.all_eq_true.mpr proper.fraction_digit
      unfold ofText?
      simp only [text, taken, dropped, some_whole, fraction_digit, ne_eq, not_false_eq_true,
        List.cons_ne_nil, and_self, ↓reduceIte]

/-- What is read as a numeral is the text of a proper one. -/
theorem Numeral.ofText?_eq_some_iff {cs : List Char} {numeral : Numeral} :
    ofText? cs = some numeral ↔ numeral.IsProper ∧ numeral.text = cs := by
  constructor
  · exact isProper_of_ofText?
  · rintro ⟨proper, rfl⟩
    exact ofText?_text proper

/-- Positions in a source, the line the cursor is on, and what has been made of what was met. -/
structure Cursor (ρ : Type) where
  start : Nat
  current : Nat
  line : Nat
  met : ρ
  deriving DecidableEq, Repr

namespace Cursor
variable {ρ : Type}

/-- The cursor at the beginning of a source, with what is there before anything is met. -/
def initial (met : ρ) : Cursor ρ where
  start := 0
  current := 0
  line := 1
  met := met

/-- The cursor about to cut from where it is. -/
def begun (cursor : Cursor ρ) : Cursor ρ :=
  { cursor with start := cursor.current }

/-- Hands over an event. -/
def meet (hand : ρ → Event → ρ) (event : Event) (cursor : Cursor ρ) : Cursor ρ :=
  { cursor with met := hand cursor.met event }

/-- The cursor some octets and lines further on. -/
def forward (octets lines : Nat) (cursor : Cursor ρ) : Cursor ρ :=
  { cursor with current := cursor.current + octets, line := cursor.line + lines }

variable (source : String)

def atEnd (cursor : Cursor ρ) : Bool :=
  source.utf8ByteSize ≤ cursor.current

/-- The octet ahead; NUL at the end. -/
def peek (cursor : Cursor ρ) : Char :=
  (octetAt? source cursor.current).getD '\x00'

/-- The octet after that; NUL if there is none. -/
def peekNext (cursor : Cursor ρ) : Char :=
  (octetAt? source (cursor.current + 1)).getD '\x00'

/-- Reads the octet ahead and moves past it. -/
def advance (cursor : Cursor ρ) : Except Breach (Char × Cursor ρ) :=
  match octetAt? source cursor.current with
  | some octet => .ok (octet, cursor.forward 1 0)
  | none => .error (.pastEnd cursor.current)

/-- Moves past the octet ahead if it is the expected one. -/
def accept (expected : Char) (cursor : Cursor ρ) : Bool × Cursor ρ :=
  if peek source cursor ≠ expected ∨ atEnd source cursor then (false, cursor)
  else (true, cursor.forward 1 0)

def countLine (cursor : Cursor ρ) : Except Breach (Cursor ρ) :=
  if cursor.line ≤ source.utf8ByteSize then .ok (cursor.forward 0 1)
  else .error (.tooManyLines (cursor.line + 1))

/-- Counts a newline ahead, if newlines count. -/
def countNewline (counting : Bool) (cursor : Cursor ρ) : Except Breach (Cursor ρ) :=
  if counting ∧ peek source cursor = '\n' then countLine source cursor else .ok cursor

/-- Moves past one octet, and counts it if it is a newline and newlines count. -/
def pass (counting : Bool) (cursor : Cursor ρ) : Except Breach (Cursor ρ) := do
  let counted ← countNewline source counting cursor
  let (_, passed) ← advance source counted
  return passed

/-- Reading an octet goes one further, and only inside the source. -/
theorem current_lt_of_advance {cursor next : Cursor ρ} {octet : Char}
    (advanced : advance source cursor = .ok (octet, next)) :
    cursor.current < source.utf8ByteSize ∧ next.current = cursor.current + 1 := by
  unfold advance at advanced
  split at advanced
  · rename_i found
    cases advanced
    exact ⟨lt_utf8ByteSize_of_octetAt? found, rfl⟩
  · cases advanced

/-- Passing an octet goes one further, and only inside the source. -/
theorem current_lt_of_pass {counting : Bool} {cursor next : Cursor ρ}
    (passed : pass source counting cursor = .ok next) :
    cursor.current < source.utf8ByteSize ∧ next.current = cursor.current + 1 := by
  unfold pass at passed
  obtain ⟨counted, count, rest⟩ := Breach.exists_of_bind_eq_ok passed
  have still : counted.current = cursor.current := by
    unfold countNewline countLine at count
    split at count
    · split at count
      · cases count
        rfl
      · cases count
    · cases count
      rfl
  obtain ⟨⟨octet, behind⟩, advanced, done⟩ := Breach.exists_of_bind_eq_ok rest
  cases done
  rw [← still]
  exact current_lt_of_advance source advanced

/-- Moves on for as long as there is reason to. -/
def advanceWhile (more : Cursor ρ → Bool) (counting : Bool) (cursor : Cursor ρ) :
    Except Breach (Cursor ρ) :=
  if more cursor then
    match _passed : pass source counting cursor with
    | .ok next => advanceWhile more counting next
    | .error breach => .error breach
  else .ok cursor
termination_by source.utf8ByteSize - cursor.current
decreasing_by
  have further := current_lt_of_pass source _passed
  omega

/-- The text between two positions. -/
def slice (start stop : Nat) : Except Breach String :=
  (textBetween? source start stop).elim (.error (.badSlice start stop)) .ok

/-- The text that the cursor has gone over. -/
def lexeme (cursor : Cursor ρ) : Except Breach String :=
  slice source cursor.start cursor.current

variable (hand : ρ → Event → ρ)

/-- Meets a token with the text gone over. -/
def addToken (kind : TokenKind) (literal : Option Literal) (cursor : Cursor ρ) :
    Except Breach (Cursor ρ) := do
  let text ← lexeme source cursor
  return cursor.meet hand (.token ⟨kind, text, literal, cursor.line⟩)

/-- A string, from behind its first quotation mark on. -/
def scanString (cursor : Cursor ρ) : Except Breach (Cursor ρ) := do
  let closing ← advanceWhile source (fun ahead => peek source ahead != '"' && !atEnd source ahead)
    true cursor
  if atEnd source closing then return closing.meet hand (.openString cursor.line closing.line)
  let (_, closed) ← advance source closing
  let body ← slice source (closed.start + 1) (closed.current - 1)
  let text ← lexeme source closed
  return closed.meet hand (.token ⟨.string, text, some (.string body), cursor.line⟩)

def scanDigits (cursor : Cursor ρ) : Except Breach (Cursor ρ) :=
  advanceWhile source (fun ahead => (peek source ahead).isDigit) false cursor

/-- A point and digits, if both are ahead. -/
def scanFraction (cursor : Cursor ρ) : Except Breach (Cursor ρ) :=
  if peek source cursor = '.' ∧ (peekNext source cursor).isDigit then do
    let (_, pointed) ← advance source cursor
    scanDigits source pointed
  else .ok cursor

/-- A number, from behind its first digit on. -/
def scanNumber (cursor : Cursor ρ) : Except Breach (Cursor ρ) := do
  let whole ← scanDigits source cursor
  let finished ← scanFraction source whole
  let text ← lexeme source finished
  match Numeral.ofText? text.toList with
  | some numeral => addToken source hand .number (some (.number numeral.value)) finished
  | none => .error (.notNumeral text)

/-- A word, from behind its first letter on. -/
def scanWord (cursor : Cursor ρ) : Except Breach (Cursor ρ) := do
  let finished ← advanceWhile source (fun ahead => isWordCharacter (peek source ahead)) false cursor
  let text ← lexeme source finished
  addToken source hand ((Keyword.ofSpelling? text).elim .identifier .keyword) none finished

/-- A mark or a comment, from behind its first character on. -/
def scanMark (mark : Punctuator) (cursor : Cursor ρ) : Except Breach (Cursor ρ) :=
  if mark = .slash then
    let (comment, behind) := accept source '/' cursor
    if comment then
      advanceWhile source (fun ahead => peek source ahead != '\n' && !atEnd source ahead) false
        behind
    else addToken source hand (.punctuator mark) none behind
  else
    match mark.withEqual? with
    | some longer =>
      let (double, behind) := accept source '=' cursor
      addToken source hand (.punctuator (if double then longer else mark)) none behind
    | none => addToken source hand (.punctuator mark) none cursor

/-- A character that begins nothing, of which the first octet has been read. -/
def strayCharacter (cursor : Cursor ρ) : Except Breach (Cursor ρ) := do
  let rest ← slice source cursor.start source.utf8ByteSize
  match rest.toList.head? with
  | some c =>
    return { cursor with current := cursor.start + c.utf8Size }.meet hand (.stray c cursor.line)
  | none => .error (.noCharacter cursor.start)

/-- One segment of the source. -/
def scanSegment (cursor : Cursor ρ) : Except Breach (Cursor ρ) := do
  let (first, behind) ← advance source cursor
  match Punctuator.single? first with
  | some mark => scanMark source hand mark behind
  | none =>
    if first = '"' then scanString source hand behind
    else if isBlank first then return behind
    else if first = '\n' then countLine source behind
    else if first.isDigit then scanNumber source hand behind
    else if isLetter first then scanWord source hand behind
    else strayCharacter source hand behind

/-- The cursor is here after a number of segments, from what was there at first. -/
inductive Reached (origin : ρ) : Nat → Cursor ρ → Prop
  | start : Reached origin 0 (initial origin)
  | step {segments : Nat} {cursor next : Cursor ρ} (reached : Reached origin segments cursor)
      (more : atEnd source cursor = false)
      (scanned : scanSegment source hand cursor.begun = .ok next) :
      Reached origin (segments + 1) next

end Cursor

end LoxLexer
