import AlarmPanel.Event
import AlarmPanel.Text.Word
import AlarmPanel.Text.Quoted

namespace AlarmPanel

namespace Line

open Text

def afterBlanks? : List Char → Option (List Char)
  | [] => none
  | c :: s => if isBlank c then some (s.dropWhile isBlank) else none

def digits? (s : List Char) : Option (List Char × List Char) :=
  let ds := s.takeWhile isDecimalDigit
  if ds.isEmpty then none else some (ds, s.dropWhile isDecimalDigit)

def word? (w s : List Char) : Option (List Char) :=
  afterHead? w s

/-- A letter in either case; the long s counts as an s. -/
def sameLetter (a c : Char) : Bool :=
  c.toLower == a.toLower || (a.toLower == 's' && c == 'ſ')

def wordAnyCase? : List Char → List Char → Option (List Char)
  | [], s => some s
  | a :: w, c :: s => if sameLetter a c then wordAnyCase? w s else none
  | _ :: _, [] => none

/-- Digits with marks between them, such as a date: `form` holds a zero for each digit. -/
def digitForm? : List Char → List Char → Option (List Char × List Char)
  | [], s => some ([], s)
  | f :: form, c :: s =>
    if (if f = '0' then isDecimalDigit c else c == f) then
      (digitForm? form s).map fun r ↦ (c :: r.1, r.2)
    else none
  | _ :: _, [] => none

def dateForm : List Char := "0000/00/00".toList
def clockForm : List Char := "00:00".toList

structure Head where
  date : List Char
  clock : List Char
  partition : List Char

def head? (s : List Char) : Option (Head × List Char) := do
  let (date, s) ← digitForm? dateForm s
  let s ← afterBlanks? s
  let (clock, s) ← digitForm? clockForm s
  let s ← afterBlanks? s
  let s ← word? "Partition".toList s
  let s ← afterBlanks? s
  let (partition, s) ← digits? s
  return (⟨date, clock, partition⟩, s)

inductive Shape where
  | zone
  | user
  | partition
  deriving DecidableEq, Repr

def lastNumber? (s : List Char) : Option (List Char) := do
  let s ← afterBlanks? s
  let (ds, s) ← digits? s
  if s.all isBlank then some ds else none

/-- What has to follow the action: the digits of its subject. -/
def Shape.ending? : Shape → List Char → Option (List Char)
  | zone, s => (afterBlanks? s).bind fun s ↦ (word? "Zone".toList s).bind lastNumber?
  | user, s =>
    (afterBlanks? s).bind fun s ↦ (wordAnyCase? "User".toList s).bind fun s ↦
      (afterBlanks? s).bind fun s ↦ (wordAnyCase? "Code".toList s).bind lastNumber?
  | partition, s => if s.all isBlank then some [] else none

variable {α : Type}

/-- The shortest text without a line feed, of one character at least, that `ending` can follow. -/
def shortest? (ending : List Char → Option α) : List Char → Option (List Char × α)
  | [] => none
  | c :: s =>
    if c = '\n' then none
    else match ending s with
      | some a => some ([c], a)
      | none => (shortest? ending s).map fun r ↦ (c :: r.1, r.2)

/-- One or more blanks, as many as let the rest match. -/
def skipBlanks? (rest : List Char → Option α) : List Char → Option α
  | [] => none
  | c :: s =>
    if isBlank c then
      match skipBlanks? rest s with
      | some a => some a
      | none => rest s
    else none

structure Parts where
  head : Head
  shape : Shape
  action : List Char
  subject : List Char

def Shape.match? (shape : Shape) (s : List Char) : Option Parts :=
  (head? s).bind fun r ↦
    (skipBlanks? (shortest? shape.ending?) r.2).map fun p ↦ ⟨r.1, shape, p.1, p.2⟩

def parts? (s : List Char) : Option Parts :=
  [Shape.zone, .user, .partition].findSome? fun shape ↦ shape.match? s

def quotedIn (what : String) (text line : List Char) (reason : String) : PanelError :=
  .malformedResponse (what ++ " '" ++ String.ofList text ++ "' in line " ++
    String.ofList (quote line) ++ ": " ++ reason)

def readIndex (line s : List Char) : Except PanelError UInt32 :=
  (Numeral.readIndex s).mapError fun e ↦ quotedIn "bad index" s line e.message

def readAction (line s : List Char) : Except PanelError Action :=
  match Action.ofPhrase? s with
  | some a => .ok a
  | none => .error (.unknownAction (String.ofList (trim s)) (String.ofList line))

def readSubject (line : List Char) (p : Parts) : Except PanelError (Option Subject) :=
  match p.shape with
  | .zone => (readIndex line p.subject).map fun n ↦ some (.zone n)
  | .user => (readIndex line p.subject).map fun n ↦ some (.user n)
  | .partition => .ok none

def readParts (line : List Char) (p : Parts) : Except PanelError Event := do
  let action ← readAction line p.action
  let subject ← readSubject line p
  let date ← (Date.read p.head.date).mapError fun e ↦
    quotedIn "bad date" p.head.date line e.message
  let clock ← (Clock.read p.head.clock).mapError fun e ↦
    quotedIn "bad time" p.head.clock line e.message
  let partition ← readIndex line p.head.partition
  return ⟨date, clock, partition, action, subject⟩

end Line

/-- The event of a line, if the line has one of the shapes. -/
def Event.ofLine (line : List Char) : Except PanelError (Option Event) :=
  match Line.parts? line with
  | none => .ok none
  | some p => (Line.readParts line p).map some

end AlarmPanel
