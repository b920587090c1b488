import AlarmPanel.Decimal.Notation
import AlarmPanel.Json.Basic

namespace AlarmPanel.Json

/-- Numbers are written positionally from the fifth place after the point up to sixteen digits before
it. -/
def style : Decimal.Style where
  tie := .even
  fraction := true
  positional := fun e ↦ -5 ≤ e && e ≤ 15
  plus := ['+']
  nan := "null".toList
  infinity := "null".toList

def escape (c : Char) : List Char :=
  match c with
  | '"' => "\\\"".toList
  | '\\' => "\\\\".toList
  | '\n' => "\\n".toList
  | '\r' => "\\r".toList
  | '\t' => "\\t".toList
  | '\x08' => "\\b".toList
  | '\x0c' => "\\f".toList
  | c =>
    if c.toNat < 0x20 then
      "\\u00".toList ++ [Nat.digitChar (c.toNat / 16), Nat.digitChar (c.toNat % 16)]
    else [c]

def quote (s : String) : List Char :=
  '"' :: (s.toList.flatMap escape ++ ['"'])

mutual

def render : Json → List Char
  | null => "null".toList
  | bool b => (if b then "true" else "false").toList
  | int n => Numeral.signed n
  | float x => style.render x
  | text s => quote s
  | array l => '[' :: renderElements l
  | object l => '{' :: renderMembers l

def renderElements : List Json → List Char
  | [] => [']']
  | [v] => render v ++ [']']
  | v :: w :: l => render v ++ ',' :: renderElements (w :: l)

def renderMembers : List (String × Json) → List Char
  | [] => ['}']
  | [(k, v)] => quote k ++ ':' :: render v ++ ['}']
  | (k, v) :: m :: l => quote k ++ ':' :: render v ++ ',' :: renderMembers (m :: l)

end

def toText (j : Json) : String :=
  String.ofList j.render

end AlarmPanel.Json
