import Mathlib.Data.Bool.AllAny
import Mathlib.Data.List.Basic
import Mathlib.Data.String.Basic

/-! Values of HTTP headers. -/
namespace Header

/-- Blanks around a value are not part of it. -/
def isBlank (c : Char) : Bool := c = ' ' || c = '\t'

def trim (s : String) : String :=
  String.ofList ((s.toList.dropWhile isBlank).reverse.dropWhile isBlank).reverse

/-- A server sends no control character but a tab. -/
def isSendable (s : String) : Bool :=
  s.toList.all fun c => (32 ≤ c.toNat || c = '\t') && c.toNat ≠ 127

/-- What arrives of a header that a proxy sets; an empty one is not sent. -/
def field (value : String) : Option String :=
  if trim value = "" then none else some (trim value)

variable {s : String}

theorem trim_eq_self (h : ∀ c ∈ s.toList, isBlank c = false) : trim s = s := by
  have hdrop : ∀ cs : List Char, (∀ c ∈ cs, isBlank c = false) → cs.dropWhile isBlank = cs := by
    intro cs hcs
    cases cs with
    | nil => rfl
    | cons c cs => exact List.dropWhile_cons_of_neg (by simp [hcs c List.mem_cons_self])
  rw [trim, hdrop s.toList h, hdrop s.toList.reverse (by simpa using h), List.reverse_reverse,
    String.ofList_toList]

theorem field_eq_some (hne : s ≠ "") (h : ∀ c ∈ s.toList, isBlank c = false) :
    field s = some s := by
  rw [field, trim_eq_self h, if_neg hne]

end Header
