import Licensing.Expression.Basic

/-! # The canonical order of expressions

Expressions are listed lightest first, those of one weight by their written form. Different
expressions can have the same weight and the same written form: a listed license `MIT` and free text
with the title `MIT`. A last comparison, of an unambiguous `code`, parts those, so that the order is
linear.

* `Expression.code_injective` — the code determines the expression.
* `Expression.instLawfulEqOrd`, `Expression.instTransOrd` — the order is linear.
-/

namespace Licensing

/-! ## Codes

A code is a list of numbers from which the value can be read back, also with more numbers behind. -/

/-- A string, with its length in front. -/
def stringCode (s : String) : List Nat :=
  s.toList.length :: s.toList.map Char.toNat

theorem stringCode_append_inj {s t : String} {l m : List Nat}
    (h : stringCode s ++ l = stringCode t ++ m) : s = t ∧ l = m := by
  simp only [stringCode, List.cons_append, List.cons.injEq] at h
  obtain ⟨lengths, rest⟩ := h
  obtain ⟨chars, tails⟩ := List.append_inj rest (by simpa using lengths)
  have : s.toList = t.toList :=
    List.map_inj_right (fun _ _ same => Char.toNat_inj.1 same) |>.1 chars
  exact ⟨String.toList_inj.1 this, tails⟩

/-- Several strings, with their number in front. -/
def stringsCode (ss : List String) : List Nat :=
  ss.length :: ss.flatMap stringCode

theorem stringsCode_append_inj {ss ts : List String} {l m : List Nat}
    (h : stringsCode ss ++ l = stringsCode ts ++ m) : ss = ts ∧ l = m := by
  induction ss generalizing ts with
  | nil =>
    cases ts with
    | nil => simpa [stringsCode] using h
    | cons t ts => simp [stringsCode] at h
  | cons s ss ih =>
    cases ts with
    | nil => simp [stringsCode] at h
    | cons t ts =>
      simp only [stringsCode, List.length_cons, List.flatMap_cons, List.cons_append,
        List.cons.injEq, Nat.add_right_cancel_iff, List.append_assoc] at h
      obtain ⟨lengths, rest⟩ := h
      obtain ⟨heads, tails⟩ := stringCode_append_inj rest
      have := @ih ts (by simp [stringsCode, lengths, tails])
      exact ⟨by rw [heads, this.1], this.2⟩

def Named.code : Named → List Nat
  | .standard id => 0 :: stringCode id
  | .free text => 1 :: (stringCode text.title ++ stringsCode text.uris)

theorem Named.code_append_inj {a b : Named} {l m : List Nat}
    (h : a.code ++ l = b.code ++ m) : a = b ∧ l = m := by
  cases a with
  | standard id =>
    cases b with
    | standard id' =>
      simp only [Named.code, List.cons_append, List.cons.injEq, true_and] at h
      obtain ⟨same, rest⟩ := stringCode_append_inj h
      exact ⟨by rw [same], rest⟩
    | free text => simp [Named.code] at h
  | free text =>
    cases b with
    | standard id => simp [Named.code] at h
    | free text' =>
      simp only [Named.code, List.cons_append, List.cons.injEq, true_and, List.append_assoc] at h
      obtain ⟨titles, h⟩ := stringCode_append_inj h
      obtain ⟨uris, rest⟩ := stringsCode_append_inj h
      cases text
      cases text'
      simp_all

def SimpleTerm.code : SimpleTerm → List Nat
  | .exact license => 0 :: license.code
  | .orLater license => 1 :: license.code

theorem SimpleTerm.code_append_inj {a b : SimpleTerm} {l m : List Nat}
    (h : a.code ++ l = b.code ++ m) : a = b ∧ l = m := by
  cases a <;> cases b <;> simp [SimpleTerm.code] at h <;>
    (obtain ⟨same, rest⟩ := Named.code_append_inj h; exact ⟨by rw [same], rest⟩)

def Connective.code : Connective → Nat
  | .and => 3
  | .or => 4

theorem Connective.code_inj {a b : Connective} (h : a.code = b.code) : a = b := by
  cases a <;> cases b <;> simp_all [Connective.code]

namespace Expression

mutual

def code : Expression → List Nat
  | .sentinel name => 0 :: stringCode name
  | .simple term => 1 :: term.code
  | .withException term exception => 2 :: (term.code ++ exception.code)
  | .compound connective operands => connective.code :: operandsCode operands

/-- The codes of several expressions, each with a one in front, and a zero at the end. -/
def operandsCode : List Expression → List Nat
  | [] => [0]
  | e :: es => 1 :: (e.code ++ operandsCode es)

end

mutual

theorem code_append_inj {a b : Expression} {l m : List Nat}
    (h : a.code ++ l = b.code ++ m) : a = b ∧ l = m := by
  match a, b with
  | .sentinel n, .sentinel k =>
    simp only [code, List.cons_append, List.cons.injEq, true_and] at h
    obtain ⟨same, rest⟩ := stringCode_append_inj h
    exact ⟨by rw [same], rest⟩
  | .simple s, .simple t =>
    simp only [code, List.cons_append, List.cons.injEq, true_and] at h
    obtain ⟨same, rest⟩ := SimpleTerm.code_append_inj h
    exact ⟨by rw [same], rest⟩
  | .withException s x, .withException t y =>
    simp only [code, List.cons_append, List.cons.injEq, true_and, List.append_assoc] at h
    obtain ⟨terms, h⟩ := SimpleTerm.code_append_inj h
    obtain ⟨exceptions, rest⟩ := Named.code_append_inj h
    exact ⟨by rw [terms, exceptions], rest⟩
  | .compound c as, .compound d bs =>
    simp only [code, List.cons_append, List.cons.injEq] at h
    obtain ⟨same, rest⟩ := operandsCode_append_inj h.2
    exact ⟨by rw [Connective.code_inj h.1, same], rest⟩
  | .sentinel _, .simple _ | .sentinel _, .withException .. | .simple _, .sentinel _
  | .simple _, .withException .. | .withException .., .sentinel _
  | .withException .., .simple _ => simp [code] at h
  | .sentinel _, .compound c _ | .simple _, .compound c _ | .withException .., .compound c _ =>
    cases c <;> simp [code, Connective.code] at h
  | .compound c _, .sentinel _ | .compound c _, .simple _ | .compound c _, .withException .. =>
    cases c <;> simp [code, Connective.code] at h

theorem operandsCode_append_inj {as bs : List Expression} {l m : List Nat}
    (h : operandsCode as ++ l = operandsCode bs ++ m) : as = bs ∧ l = m := by
  match as, bs with
  | [], [] => simpa [operandsCode] using h
  | [], _ :: _ => simp [operandsCode] at h
  | _ :: _, [] => simp [operandsCode] at h
  | a :: as, b :: bs =>
    simp only [operandsCode, List.cons_append, List.cons.injEq, true_and, List.append_assoc] at h
    obtain ⟨heads, h⟩ := code_append_inj h
    obtain ⟨tails, rest⟩ := operandsCode_append_inj h
    exact ⟨by rw [heads, tails], rest⟩

end

theorem code_injective {a b : Expression} (h : a.code = b.code) : a = b :=
  (code_append_inj (l := []) (m := []) (by simpa using h)).1

/-! ## The order -/

/-- Lightest first, then by written form, then by code. -/
instance : Ord Expression where
  compare := compareLex (compareOn weight) (compareLex (compareOn text) (compareOn code))

instance instTransOrd : Std.TransOrd Expression :=
  inferInstanceAs (Std.TransCmp
    (compareLex (compareOn weight) (compareLex (compareOn text) (compareOn code))))

instance instLawfulEqOrd : Std.LawfulEqOrd Expression where
  compare_self := Std.ReflCmp.compare_self
  eq_of_compare {a b} h := by
    have h : compareLex (compareOn weight) (compareLex (compareOn text) (compareOn code)) a b = .eq := h
    simp only [compareLex, compareOn, Ordering.then_eq_eq] at h
    exact code_injective (Std.LawfulEqOrd.eq_of_compare h.2.2)

/-- Expressions in canonical order; expressions that occur more than once are kept. -/
def ordered (es : List Expression) : List Expression :=
  es.mergeSort fun a b => (compare a b).isLE

end Expression

end Licensing
