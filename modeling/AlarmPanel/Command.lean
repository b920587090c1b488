import AlarmPanel.Numeral
import AlarmPanel.Text.Blank

namespace AlarmPanel

inductive ArmMode where
  | away
  | force
  | stay
  | instant
  deriving DecidableEq, Repr

namespace ArmMode

def all : List ArmMode := [away, force, stay, instant]

def letter : ArmMode → Char
  | away => 'A'
  | force => 'F'
  | stay => 'S'
  | instant => 'I'

def ofLetter? (c : Char) : Option ArmMode :=
  all.find? fun m ↦ m.letter == c

end ArmMode

/-- Commands that name one zone, area, user or input and nothing else. -/
inductive Operation where
  | areaStatus
  | zoneStatus
  | openInput
  | closeInput
  | zoneLabel
  | areaLabel
  | userLabel
  | emergencyPanic
  | medicalPanic
  | firePanic
  | smokeReset
  deriving DecidableEq, Repr

namespace Operation

def all : List Operation :=
  [areaStatus, zoneStatus, openInput, closeInput, zoneLabel, areaLabel, userLabel, emergencyPanic,
    medicalPanic, firePanic, smokeReset]

def letters : Operation → List Char
  | areaStatus => ['R', 'A']
  | zoneStatus => ['R', 'Z']
  | openInput => ['V', 'O']
  | closeInput => ['V', 'C']
  | zoneLabel => ['Z', 'L']
  | areaLabel => ['A', 'L']
  | userLabel => ['U', 'L']
  | emergencyPanic => ['P', 'E']
  | medicalPanic => ['P', 'M']
  | firePanic => ['P', 'F']
  | smokeReset => ['S', 'R']

end Operation

inductive Command where
  | indexed (operation : Operation) (index : UInt32)
  | powerQuery
  | errorQuery
  | setPower (state : Int64)
  | resetAll
  | arm (area : UInt32) (mode : ArmMode) (code : String)
  | disarm (area : UInt32) (code : String)
  | raw (text : String)
  deriving DecidableEq, Repr

namespace Command

/-- An index takes three digits; one above 999 takes as many as it needs. -/
def index (n : UInt32) : List Char :=
  Numeral.padded 3 n.toNat

def render : Command → List Char
  | indexed operation n => operation.letters ++ index n
  | powerQuery => "PWR?".toList
  | errorQuery => "ERR?".toList
  | setPower state => "POWER ".toList ++ Numeral.signed state.toInt
  | resetAll => "INITALL".toList
  | arm area mode code => ['A', 'A'] ++ index area ++ mode.letter :: code.toList
  | disarm area code => ['A', 'D'] ++ index area ++ code.toList
  | raw text => text.toList

def text (c : Command) : String :=
  String.ofList c.render

def splitIndex? : List Char → Option (UInt32 × List Char)
  | a :: b :: c :: s =>
    if a.isDigit && b.isDigit && c.isDigit then
      (Numeral.readIndex [a, b, c]).toOption.map fun n ↦ (n, s)
    else none
  | _ => none

def afterLetters? (letters s : List Char) : Option (UInt32 × List Char) :=
  (Text.afterHead? letters s).bind splitIndex?

def readPower? (s : List Char) : Option Command :=
  (Text.afterHead? "POWER ".toList s).bind fun r ↦
    (Numeral.read? .i64 10 r).map fun n ↦ setPower (.ofInt n)

def readArm? (s : List Char) : Option Command :=
  match afterLetters? ['A', 'A'] s with
  | some (area, m :: code) =>
    (ArmMode.ofLetter? m).map fun mode ↦ arm area mode (String.ofList code)
  | _ => none

def readDisarm? (s : List Char) : Option Command :=
  (afterLetters? ['A', 'D'] s).map fun r ↦ disarm r.1 (String.ofList r.2)

def readIndexed? (s : List Char) : Option Command :=
  Operation.all.findSome? fun operation ↦
    match afterLetters? operation.letters s with
    | some (n, []) => some (indexed operation n)
    | _ => none

def readFixed? (s : List Char) : Option Command :=
  [powerQuery, errorQuery, resetAll].find? fun c ↦ c.render == s

def read? (s : List Char) : Option Command :=
  readFixed? s <|> readPower? s <|> readArm? s <|> readDisarm? s <|> readIndexed? s

def ofText (text : String) : Command :=
  (read? text.toList).getD (raw text)

end Command

end AlarmPanel
