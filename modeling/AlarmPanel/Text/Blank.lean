namespace AlarmPanel.Text

def isBlank (c : Char) : Bool :=
  let n := c.toNat
  (9 ≤ n && n ≤ 13) || n == 0x20 || n == 0x85 || n == 0xA0 || n == 0x1680 ||
    (0x2000 ≤ n && n ≤ 0x200A) || n == 0x2028 || n == 0x2029 || n == 0x202F ||
    n == 0x205F || n == 0x3000

variable {α : Type}

def dropEndWhile (p : α → Bool) : List α → List α
  | [] => []
  | a :: l =>
    match dropEndWhile p l with
    | [] => if p a then [] else [a]
    | r => a :: r

def trimBy (p : α → Bool) (l : List α) : List α :=
  dropEndWhile p (l.dropWhile p)

def trim (s : List Char) : List Char :=
  trimBy isBlank s

/-- The two sides of the first member satisfying `p`, which belongs to neither. -/
def splitFirst? (p : α → Bool) : List α → Option (List α × List α)
  | [] => none
  | a :: l => if p a then some ([], l) else (splitFirst? p l).map fun r ↦ (a :: r.1, r.2)

def splitLast? (p : α → Bool) : List α → Option (List α × List α)
  | [] => none
  | a :: l =>
    match splitLast? p l with
    | some r => some (a :: r.1, r.2)
    | none => if p a then some ([], l) else none

def afterHead? [BEq α] : List α → List α → Option (List α)
  | [], l => some l
  | _ :: _, [] => none
  | a :: head, b :: l => if a == b then afterHead? head l else none

/-- What precedes the last member `a` of a list that ends in it. -/
def beforeLast? [BEq α] (a : α) (l : List α) : Option (List α) :=
  match l.getLast? with
  | some b => if b == a then some l.dropLast else none
  | none => none

theorem dropEndWhile_eq_reverse (p : α → Bool) (l : List α) :
    dropEndWhile p l = (l.reverse.dropWhile p).reverse := by
  induction l with
  | nil => rfl
  | cons a l ih =>
    rw [dropEndWhile, ih, List.reverse_cons, List.dropWhile_append]
    cases h : l.reverse.dropWhile p with
    | nil => by_cases ha : p a <;> simp [ha]
    | cons b m =>
      rw [List.reverse_cons]
      cases hm : m.reverse ++ [b] with
      | nil => simp at hm
      | cons x y => simp [← hm]

end AlarmPanel.Text
