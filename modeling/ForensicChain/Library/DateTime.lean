import Mathlib.Algebra.GroupWithZero.Nat
import Mathlib.Data.List.Basic
import Mathlib.Data.String.Basic

/-!
Instants from texts such as `2025-01-31T10:20:30.123456+00:00`, in microseconds since the start of
year 1. A text without an offset names no instant.
-/
namespace DateTime

def digit (c : Char) : Option Nat := if c.isDigit then some (c.toNat - 48) else none

/-- The value of a run of digits. -/
def number : List Char → Option Nat
  | [] => some 0
  | cs => cs.foldl (fun acc c => acc.bind fun n => (digit c).map (n * 10 + ·)) (some 0)

def isLeap (y : Nat) : Bool := y % 4 = 0 && (y % 100 ≠ 0 || y % 400 = 0)

def daysInMonth (y m : Nat) : Nat :=
  if m = 2 then (if isLeap y then 29 else 28) else if m ∈ [4, 6, 9, 11] then 30 else 31

/-- Days from the start of year 1 to the given day. -/
def daysBefore (y m d : Nat) : Nat :=
  (y - 1) * 365 + (y - 1) / 4 - (y - 1) / 100 + (y - 1) / 400 +
    ((List.range (m - 1)).map fun k => daysInMonth y (k + 1)).sum + (d - 1)

/-- Microseconds from the first six digits of a fraction, which may be missing. -/
def fraction : List Char → Option Nat × List Char
  | '.' :: cs =>
    let ds := cs.takeWhile Char.isDigit
    (if ds = [] then none else number ((ds ++ List.replicate 6 '0').take 6),
      cs.dropWhile Char.isDigit)
  | cs => (some 0, cs)

/-- The offset from UTC, in seconds. -/
def offset : List Char → Option Int
  | ['Z'] => some 0
  | [sign, h₁, h₂, ':', m₁, m₂] => do
    let h ← number [h₁, h₂]
    let m ← number [m₁, m₂]
    if h < 24 ∧ m < 60 then
      if sign = '+' then some (h * 3600 + m * 60)
      else if sign = '-' then some (-(h * 3600 + m * 60))
      else none
    else none
  | _ => none

/-- `datetime.fromisoformat` of a full date and time, with both separators and with seconds. Python
3.11 also reads shorter times, basic and week dates, commas, and offsets in other forms. -/
def fromisoformat (s : String) : Option Int :=
  match s.toList with
  | y₁ :: y₂ :: y₃ :: y₄ :: '-' :: m₁ :: m₂ :: '-' :: d₁ :: d₂ :: _ :: h₁ :: h₂ :: ':' ::
      n₁ :: n₂ :: ':' :: s₁ :: s₂ :: rest => do
    let year ← number [y₁, y₂, y₃, y₄]
    let month ← number [m₁, m₂]
    let day ← number [d₁, d₂]
    let hour ← number [h₁, h₂]
    let minute ← number [n₁, n₂]
    let second ← number [s₁, s₂]
    let micro ← (fraction rest).1
    let off ← offset (fraction rest).2
    if 1 ≤ year ∧ 1 ≤ month ∧ month ≤ 12 ∧ 1 ≤ day ∧ day ≤ daysInMonth year month ∧
        hour < 24 ∧ minute < 60 ∧ second < 60 then
      let seconds : Int := daysBefore year month day * 86400 + hour * 3600 + minute * 60 + second
      some ((seconds - off) * 1000000 + micro)
    else none
  | _ => none

example : fromisoformat "0001-01-02T00:00:01.5+00:00" = some 86401500000 := by decide

end DateTime
