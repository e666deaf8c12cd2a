import BasicCompiler.Proofs.Target.Lexical

/-!
# The values of C expressions

How C reads and calculates sums and products of signed constants and variables. Constants without a
point are integers, and the quotient of two integers is truncated; everything else is floating,
here without rounding, and there is no overflow. Read `Tree.value_of_exact` first: where no integer
division leaves a remainder, C calculates what exact arithmetic does.
-/

namespace BasicCompiler

/-! ## Numerals -/

/-- The number that digits denote in a base. -/
def positional (base : Nat) (digits : List Char) : Nat :=
  digits.foldl (fun number digit => number * base + (digit.toNat - '0'.toNat)) 0

/-- The number that a decimal numeral denotes, with a point or without. -/
def decimal (cs : List Char) : Rat :=
  let whole := cs.takeWhile Char.isDigit
  let fraction := (cs.dropWhile Char.isDigit).drop 1
  (positional 10 (whole ++ fraction) : Rat) / 10 ^ fraction.length

/-! ## Exact arithmetic -/

namespace Operator

/-- The operator as a sign. -/
def onOperand {α : Type} [Neg α] : Operator → α → α
  | minus, operand => -operand
  | _, operand => operand

/-- The result of an arithmetic operator; there is none for a divisor that is zero. -/
def onRationals : Operator → Rat → Rat → Option Rat
  | plus, left, right => some (left + right)
  | minus, left, right => some (left - right)
  | times, left, right => some (left * right)
  | divide, left, right => if right = 0 then none else some (left / right)
  | _, _, _ => none

/-- The result of an arithmetic operator of C on two integers. -/
def onIntegers : Operator → Int → Int → Option Int
  | plus, left, right => some (left + right)
  | minus, left, right => some (left - right)
  | times, left, right => some (left * right)
  | divide, left, right => if right = 0 then none else some (left.tdiv right)
  | _, _, _ => none

end Operator

namespace C

/-! ## Values -/

/-- An integer or a floating number. -/
inductive Value where
  | integer (n : Int)
  | floating (q : Rat)
deriving DecidableEq, Repr

namespace Value

/-- The number that a value is. -/
def toRat : Value → Rat
  | integer n => n
  | floating q => q

/-- A sign does not change the type. -/
instance : Neg Value where
  neg
    | integer n => integer (-n)
    | floating q => floating (-q)

/-- The result of an arithmetic operator. If one of its operands is floating, so is the result. -/
def apply (o : Operator) : Value → Value → Option Value
  | integer a, integer b => (o.onIntegers a b).map integer
  | a, b => (o.onRationals a.toRat b.toRat).map floating

/-- If the operator divides integers, it does so without a remainder. -/
def IsExact (o : Operator) : Value → Value → Prop
  | integer a, integer b => o = .divide → b ∣ a
  | _, _ => True

/-- Whether an operator is exact can be decided by dividing. -/
instance (o : Operator) : (a b : Value) → Decidable (IsExact o a b)
  | integer a, integer b => inferInstanceAs (Decidable (o = .divide → b ∣ a))
  | integer _, floating _ | floating _, integer _ | floating _, floating _ => isTrue trivial

/-- The number of a value with a sign. -/
theorem toRat_onOperand (o : Operator) (v : Value) :
    (o.onOperand v).toRat = o.onOperand v.toRat := by
  have hneg : (-v).toRat = -v.toRat := by
    cases v with
    | integer n => exact Rat.intCast_neg n
    | floating q => rfl
  cases o with
  | minus => exact hneg
  | _ => rfl

/-- Truncation takes nothing away from a quotient without a remainder. -/
theorem tdiv_eq_div {a b : Int} (h : b ∣ a) (hb : b ≠ 0) : ((a.tdiv b : Int) : Rat) = a / b := by
  obtain ⟨k, rfl⟩ := h
  have hb' : (b : Rat) ≠ 0 := fun hzero => hb (Rat.intCast_inj.mp hzero)
  rw [Int.mul_tdiv_cancel_left _ hb, Rat.intCast_mul, Rat.mul_comm, Rat.mul_div_cancel hb']

/-- An operator that leaves no remainder is exact. -/
theorem apply_of_isExact {o : Operator} {a b : Value} {q : Rat} (hexact : IsExact o a b)
    (h : o.onRationals a.toRat b.toRat = some q) : ∃ v, apply o a b = some v ∧ v.toRat = q := by
  cases a with
  | floating a => exact ⟨floating q, congrArg (Option.map floating) h, rfl⟩
  | integer a =>
    cases b with
    | floating b => exact ⟨floating q, congrArg (Option.map floating) h, rfl⟩
    | integer b =>
      cases o with
      | plus =>
        cases h
        exact ⟨_, rfl, Rat.intCast_add a b⟩
      | minus =>
        cases h
        exact ⟨_, rfl, Rat.intCast_sub a b⟩
      | times =>
        cases h
        exact ⟨_, rfl, Rat.intCast_mul a b⟩
      | divide =>
        by_cases hb : b = 0
        · subst hb
          cases h
        · have hb' : (b : Rat) ≠ 0 := fun hzero => hb (Rat.intCast_inj.mp hzero)
          have hq : (a : Rat) / b = q := by
            simpa [Operator.onRationals, toRat, hb'] using h
          refine ⟨integer (a.tdiv b), by simp [apply, Operator.onIntegers, hb], ?_⟩
          rw [← hq]
          exact tdiv_eq_div (hexact rfl) hb
      | _ => cases h

end Value

/-! ## Constants -/

/-- Digits and a point, with a digit at least. -/
def isFloatingConstant (cs : List Char) : Bool :=
  match cs.dropWhile Char.isDigit with
  | '.' :: fraction => fraction.all Char.isDigit && 1 < cs.length
  | _ => false

/-- The value of a constant: digits are an integer, written in base eight if the first of them is
zero, and with a point they are a floating number. Exponents, suffixes and base sixteen are left
out. -/
def constant? (cs : List Char) : Option Value :=
  if cs.all Char.isDigit then
    if cs.head? = some '0' then
      if cs.all (· < '8') then some (.integer (positional 8 cs)) else none
    else some (.integer (positional 10 cs))
  else if isFloatingConstant cs then some (.floating (decimal cs))
  else none

/-- The text begins with a zero and goes on with digits only, so that C reads it in base eight. -/
def isOctal (cs : List Char) : Bool :=
  cs.head? == some '0' && cs.all Char.isDigit && 1 < cs.length

/-- Digits without a point denote the number that they denote in base ten. -/
theorem decimal_whole {cs : List Char} (h : ∀ c ∈ cs, c.isDigit = true) :
    decimal cs = positional 10 cs := by
  have hnone : ∀ c, ([] : List Char).head? = some c → c.isDigit = false := nofun
  obtain ⟨htake, hdrop⟩ := takeWhile_append_of_boundary h hnone
  rw [List.append_nil] at htake hdrop
  have hone : (10 : Rat) ^ ([] : List Char).length = 1 := rfl
  have hcancel := Rat.mul_div_cancel (a := (positional 10 cs : Rat)) (b := 1) (by decide)
  rw [Rat.mul_one] at hcancel
  rw [decimal, htake, hdrop, List.drop_nil, List.append_nil, hone, hcancel]

/-- A constant that is not written in base eight has the value of the numeral. -/
theorem exists_constant_of_isNumeral {cs : List Char} (h : IsNumeral cs)
    (hoctal : isOctal cs = false) : ∃ v, constant? cs = some v ∧ v.toRat = decimal cs := by
  cases h with
  | whole hwhole =>
    have hall : cs.all Char.isDigit = true := List.all_eq_true.mpr hwhole.isDigit
    by_cases hzero : cs.head? = some '0'
    · -- nothing but a single zero is left, which is the same in both bases
      have hsingle : cs = ['0'] := by
        cases cs with
        | nil => cases hzero
        | cons c more =>
          cases hzero
          cases more with
          | nil => rfl
          | cons d more =>
            rw [isOctal, hall] at hoctal
            simp at hoctal
      subst hsingle
      exact ⟨.integer 0, by decide, by decide +kernel⟩
    · refine ⟨.integer (positional 10 cs), by simp [constant?, hall, hzero], ?_⟩
      rw [decimal_whole hwhole.isDigit]
      exact Rat.intCast_natCast _
  | @decimal digits fraction hwhole hfraction =>
    have hpoint : (digits ++ '.' :: fraction).all Char.isDigit = false := by simp
    have hclass : Char.isDigit '.' = false := rfl
    have hrest := (takeWhile_append_of_boundary hwhole.isDigit (boundary_cons hclass fraction)).2
    have hfloating : isFloatingConstant (digits ++ '.' :: fraction) = true := by
      have hpos := List.length_pos_iff.mpr hwhole.ne_nil
      have hlength : 1 < (digits ++ '.' :: fraction).length := by
        rw [List.length_append, List.length_cons]
        omega
      rw [isFloatingConstant, hrest]
      exact Bool.and_eq_true_iff.mpr
        ⟨List.all_eq_true.mpr hfraction.isDigit, decide_eq_true hlength⟩
    exact ⟨.floating _, by rw [constant?, hpoint, hfloating]; rfl, rfl⟩

/-! ## Trees -/

/-- An expression of constants, variables, signs and arithmetic operators. -/
inductive Tree where
  | number (text : String)
  | name (word : String)
  | signed (sign : Operator) (operand : Tree)
  | binary (operator : Operator) (left right : Tree)
deriving DecidableEq, Repr

namespace Tree

/-- The constants of a tree. -/
def numerals : Tree → List String
  | number text => [text]
  | name _ => []
  | signed _ operand => operand.numerals
  | binary _ left right => left.numerals ++ right.numerals

/-- What C calculates, if the variables have the values that `env` says. -/
def value (env : String → Rat) : Tree → Option Value
  | number text => constant? text.toList
  | name word => some (.floating (env word))
  | signed sign operand => (operand.value env).map sign.onOperand
  | binary operator left right => do
    let leftValue ← left.value env
    let rightValue ← right.value env
    leftValue.apply operator rightValue

/-- What exact arithmetic calculates, with decimal constants. -/
def rational (env : String → Rat) : Tree → Option Rat
  | number text => some (decimal text.toList)
  | name word => some (env word)
  | signed sign operand => (operand.rational env).map sign.onOperand
  | binary operator left right => do
    let leftValue ← left.rational env
    let rightValue ← right.rational env
    operator.onRationals leftValue rightValue

/-- No division of integers in the tree leaves a remainder. -/
def Exact (env : String → Rat) : Tree → Prop
  | number _ | name _ => True
  | signed _ operand => operand.Exact env
  | binary operator left right => left.Exact env ∧ right.Exact env ∧
    ∀ a ∈ left.value env, ∀ b ∈ right.value env, a.IsExact operator b

/-- Whether a tree is exact can be decided by calculating. -/
instance decidableExact (env : String → Rat) : (tree : Tree) → Decidable (tree.Exact env)
  | number _ | name _ => isTrue trivial
  | signed _ operand => decidableExact env operand
  | binary operator left right =>
    let _ := decidableExact env left
    let _ := decidableExact env right
    inferInstanceAs (Decidable (left.Exact env ∧ right.Exact env ∧
      ∀ a ∈ left.value env, ∀ b ∈ right.value env, a.IsExact operator b))

/-- Where no integer division leaves a remainder and every constant is the number that it denotes
in base ten, C calculates what exact arithmetic does. -/
theorem value_of_exact {env : String → Rat} {tree : Tree}
    (hnumerals : ∀ text ∈ tree.numerals,
      ∃ v, constant? text.toList = some v ∧ v.toRat = decimal text.toList)
    (hexact : tree.Exact env) {q : Rat} (h : tree.rational env = some q) :
    ∃ v, tree.value env = some v ∧ v.toRat = q := by
  induction tree generalizing q with
  | number text =>
    cases h
    exact hnumerals text List.mem_cons_self
  | name word =>
    cases h
    exact ⟨_, rfl, rfl⟩
  | signed sign operand ih =>
    obtain ⟨p, hp, rfl⟩ := Option.map_eq_some_iff.mp h
    obtain ⟨v, hv, rfl⟩ := ih hnumerals hexact hp
    exact ⟨sign.onOperand v, by rw [value, hv]; rfl, v.toRat_onOperand sign⟩
  | binary operator left right ihleft ihright =>
    obtain ⟨hleft, hright⟩ := List.forall_mem_append.mp hnumerals
    obtain ⟨hexactLeft, hexactRight, hexactHere⟩ := hexact
    obtain ⟨p, hp, h⟩ := Option.bind_eq_some_iff.mp h
    obtain ⟨r, hr, h⟩ := Option.bind_eq_some_iff.mp h
    obtain ⟨a, ha, rfl⟩ := ihleft hleft hexactLeft hp
    obtain ⟨b, hb, rfl⟩ := ihright hright hexactRight hr
    obtain ⟨v, hv, hq⟩ := Value.apply_of_isExact (hexactHere a ha b hb) h
    exact ⟨v, by rw [value, ha, hb]; exact hv, hq⟩

end Tree

/-! ## Parsing -/

/-- The sign or binary operator of a sum that a punctuator is. -/
def additive? : String → Option Operator
  | "+" => some .plus
  | "-" => some .minus
  | _ => none

/-- The binary operator of a product that a punctuator is. -/
def multiplicative? : String → Option Operator
  | "*" => some .times
  | "/" => some .divide
  | _ => none

/-- A left operand with its operator, if there is one, and the right operand behind it. -/
def close : Option (Tree × Operator) → Tree → Tree
  | none, right => right
  | some (left, operator), right => .binary operator left right

mutual

/-- Parse the operand of the innermost of some signs, and what is behind it. In front of the signs
stand the beginning of a sum and that of a product, each with its operator, if there are any. -/
def parseOperand (sum product : Option (Tree × Operator)) (signs : List Operator) :
    List Token → Option Tree
  | .number text :: rest =>
    parseBehind sum (close product (signs.foldr .signed (.number text))) rest
  | .name word :: rest => parseBehind sum (close product (signs.foldr .signed (.name word))) rest
  | .punctuator spelling :: rest =>
    match additive? spelling with
    | some sign => parseOperand sum product (signs ++ [sign]) rest
    | none => none
  | _ => none

/-- Parse what is behind a product. An operator of products goes on with the product, and an
operator of sums ends it. -/
def parseBehind (sum : Option (Tree × Operator)) (product : Tree) : List Token → Option Tree
  | [] => some (close sum product)
  | .punctuator spelling :: rest =>
    match multiplicative? spelling, additive? spelling with
    | some operator, _ => parseOperand sum (some (product, operator)) [] rest
    | none, some operator => parseOperand (some (close sum product, operator)) none [] rest
    | none, none => none
  | _ => none

end

/-- Parse a whole expression. Signs bind more tightly than products, products more tightly than
sums, and operators of one class group from the left. -/
def parse (tokens : List Token) : Option Tree :=
  parseOperand none none [] tokens

/-- The value of a C text. -/
def evaluate (env : String → Rat) (code : String) : Option Value :=
  (parse (tokens code.toList)).bind (Tree.value env)

end C

end BasicCompiler
