import ThreadMetric.Library.CString
import ThreadMetric.Library.Decimal

/-!
# Formatted output

`tm_printf` scans its format by a pointer that it advances in several places. Here the format is a
string in memory, the pointer an index into it, and every read is checked: a read beyond the
terminator, a digit stored outside `buf` and a `va_arg` without an argument of its type all yield no
result. `tokens` is the grammar of formats, and `tm_printf_renders` says that the scanner prints the
renderings of the tokens of its format.
-/

namespace ThreadMetric.Printf

open CStrings

variable {w : ℕ}

/-- A variable argument; `unsigned long` has `w` bits. -/
inductive Arg (w : ℕ) where
  | int (val : BitVec 32)
  | unsignedLong (val : BitVec w)
  | string (s : Option CString)

/-- A running `tm_printf`: the index of `fmt`, the arguments that `ap` has not delivered yet, and
the characters given to `tm_putchar`. -/
structure Printer (w : ℕ) where
  fmt : ℕ
  ap : List (Arg w)
  output : List Char

namespace Printer

/-- `tm_putchar(c)`. -/
def tmPutchar (p : Printer w) (c : Char) : Printer w :=
  { p with output := p.output ++ [c] }

/-- `fmt++`. -/
def advance (p : Printer w) : Printer w :=
  { p with fmt := p.fmt + 1 }

/-- `while (*s) tm_putchar(*s++)`, where the list is the memory at `s`. -/
def putString : List Char → Printer w → Option (Printer w)
  | [], _ => none
  | c :: s, p => if c = nul then some p else putString s (p.tmPutchar c)

/-! ## Numbers -/

/-- The first loop of `tm_print_unsigned_long`. `room` is the number of unused elements of `buf`. -/
def storeDigits : ℕ → ℕ → List Char → Option (List Char)
  | _, 0, buf => some buf
  | 0, _ + 1, _ => none
  | room + 1, val + 1, buf =>
      storeDigits room ((val + 1) / 10) (buf ++ [Char.ofNat ('0'.toNat + (val + 1) % 10)])

/-- The second loop of `tm_print_unsigned_long`, which counts down from the given index. -/
def emitDigits (buf : List Char) : ℕ → Printer w → Option (Printer w)
  | 0, p => some p
  | i + 1, p => do
      let c ← buf[i]?
      emitDigits buf i (p.tmPutchar c)

/-- `tm_print_unsigned_long`. -/
def tmPrintUnsignedLong (p : Printer w) (val : BitVec w) : Option (Printer w) :=
  if val.toNat = 0 then some (p.tmPutchar '0')
  else do
    let buf ← storeDigits 21 val.toNat []
    emitDigits buf buf.length p

/-- `tm_print_int`. The negation is one of unsigned numbers. -/
def tmPrintInt (p : Printer w) (val : BitVec 32) : Option (Printer w) :=
  if val.toInt < 0 then (p.tmPutchar '-').tmPrintUnsignedLong ((-val).setWidth w)
  else p.tmPrintUnsignedLong (val.signExtend w)

/-- Print several characters. -/
def puts (p : Printer w) (text : List Char) : Printer w :=
  { p with output := p.output ++ text }

@[simp] theorem puts_nil (p : Printer w) : p.puts [] = p := by
  simp [puts]

@[simp] theorem puts_puts (p : Printer w) (text text' : List Char) :
    (p.puts text).puts text' = p.puts (text ++ text') := by
  simp [puts]

/-- Printing a character is printing a text of one character. -/
theorem tm_putchar_eq (p : Printer w) (c : Char) : p.tmPutchar c = p.puts [c] := rfl

/-- Printing a string stops at its terminator. -/
theorem put_string_memory (s : List Char) (hs : nul ∉ s) (p : Printer w) :
    putString (s ++ [nul]) p = some (p.puts s) := by
  induction s generalizing p with
  | nil => simp [putString]
  | cons c s ih =>
      have hc : c ≠ nul := (List.ne_of_not_mem_cons hs).symm
      show (if c = nul then some p else putString (s ++ [nul]) (p.tmPutchar c)) = _
      rw [if_neg hc, ih (List.not_mem_of_not_mem_cons hs), tm_putchar_eq, puts_puts,
        List.singleton_append]

/-- With room for its digits, a number is stored with its last digit first. -/
theorem store_digits_eq {room val : ℕ} (hroom : val < 10 ^ room) (buf : List Char) :
    storeDigits room val buf = some (buf ++ (Decimal.digits val).reverse) := by
  induction room generalizing val buf with
  | zero =>
      obtain rfl : val = 0 := Nat.lt_one_iff.mp hroom
      rw [Decimal.digits_zero, List.reverse_nil, List.append_nil]
      rfl
  | succ room ih =>
      cases val with
      | zero =>
          rw [Decimal.digits_zero, List.reverse_nil, List.append_nil]
          rfl
      | succ pred =>
          have hquot : (pred + 1) / 10 < 10 ^ room := by
            rw [Nat.pow_succ] at hroom
            exact Nat.div_lt_of_lt_mul (by rwa [Nat.mul_comm] at hroom)
          show storeDigits room ((pred + 1) / 10)
            (buf ++ [Char.ofNat ('0'.toNat + (pred + 1) % 10)]) = _
          rw [ih hquot, Decimal.digits_split (Nat.succ_pos pred), List.reverse_append,
            List.append_assoc]
          rfl

/-- The stored digits come out in the opposite order. -/
theorem emit_digits_eq (buf : List Char) {i : ℕ} (hi : i ≤ buf.length) (p : Printer w) :
    emitDigits buf i p = some (p.puts (buf.take i).reverse) := by
  induction i generalizing p with
  | zero => simp [emitDigits]
  | succ i ih =>
      have hread : buf[i]? = some buf[i] := List.getElem?_eq_getElem (by omega)
      simp only [emitDigits, hread, Option.bind_eq_bind, Option.bind_some]
      rw [ih (by omega), tm_putchar_eq, puts_puts, List.take_add_one, hread, Option.toList_some,
        List.reverse_append, List.reverse_singleton]

/-- `buf` has room for every `unsigned long` of at most 64 bits, and what is printed is its
numeral. -/
theorem tm_print_unsigned_long_eq (hw : w ≤ 64) (p : Printer w) (val : BitVec w) :
    p.tmPrintUnsignedLong val = some (p.puts (Nat.toDigits 10 val.toNat)) := by
  unfold tmPrintUnsignedLong
  by_cases hzero : val.toNat = 0
  · rw [if_pos hzero, hzero]
    rfl
  · have hlt : val.toNat < 10 ^ 21 :=
      calc val.toNat < 2 ^ w := val.isLt
        _ ≤ 2 ^ 64 := Nat.pow_le_pow_right (by omega) hw
        _ < 10 ^ 21 := by decide
    rw [if_neg hzero, store_digits_eq hlt, List.nil_append,
      Decimal.digits_of_pos (Nat.pos_of_ne_zero hzero)]
    show emitDigits _ _ p = _
    rw [emit_digits_eq _ (Nat.le_refl _), List.take_length, List.reverse_reverse]

/-- The numeral of an `int`, the smallest one included. -/
theorem tm_print_int_eq (hlow : 32 ≤ w) (hw : w ≤ 64) (p : Printer w) (val : BitVec 32) :
    p.tmPrintInt val = some (p.puts (Decimal.ofInt val.toInt)) := by
  unfold tmPrintInt Decimal.ofInt
  by_cases hneg : val.toInt < 0
  · have habs : ((-val).setWidth w).toNat = val.toInt.natAbs := by
      have hlt : val.toNat < 2 ^ 32 := val.isLt
      have hcond := val.toInt_eq_toNat_cond
      have hbig : 2 ^ 32 ≤ 2 * val.toNat := BitVec.toInt_neg_iff.mp hneg
      rw [BitVec.toNat_setWidth_of_le hlow, BitVec.toNat_neg, hcond, if_neg (by omega),
        Nat.mod_eq_of_lt (by omega)]
      omega
    rw [if_pos hneg, if_pos hneg, tm_print_unsigned_long_eq hw, habs, tm_putchar_eq, puts_puts,
      List.singleton_append]
  · have habs : (val.signExtend w).toNat = val.toInt.natAbs := by
      have hmsb : val.msb = false := by rw [BitVec.msb_eq_toInt, decide_eq_false hneg]
      rw [BitVec.signExtend_eq_setWidth_of_msb_false hmsb, BitVec.toNat_setWidth_of_le hlow,
        BitVec.toInt_eq_msb_cond, hmsb]
      rfl
    rw [if_neg hneg, if_neg hneg, tm_print_unsigned_long_eq hw, habs]

/-! ## The scanner -/

/-- `va_arg(ap, int)`, printed. -/
def printInt (p : Printer w) : Option (Printer w) :=
  match p.ap with
  | .int val :: ap => tmPrintInt { p with ap := ap } val
  | _ => none

/-- `va_arg(ap, unsigned long)`, printed. -/
def printUnsignedLong (p : Printer w) : Option (Printer w) :=
  match p.ap with
  | .unsignedLong val :: ap => tmPrintUnsignedLong { p with ap := ap } val
  | _ => none

/-- `va_arg(ap, char *)`, printed, with the text for the null pointer. -/
def printString (p : Printer w) : Option (Printer w) :=
  match p.ap with
  | .string (some s) :: ap => putString s.memory { p with ap := ap }
  | .string none :: ap => putString ("(null)".toList ++ [nul]) { p with ap := ap }
  | _ => none

/-- Whether the loop of `tm_printf` goes on. -/
inductive Flow (w : ℕ) where
  | again (p : Printer w)
  | done (p : Printer w)

/-- The test of the loop of `tm_printf` and its body, over the memory of the format. -/
def tmPrintfBody (memory : List Char) (p : Printer w) : Option (Flow w) := do
  let c ← memory[p.fmt]?
  if c = nul then pure (.done p)
  else if c ≠ '%' then pure (.again (p.tmPutchar c).advance)
  else
    let p := p.advance
    let c ← memory[p.fmt]?
    if c = 'l' then
      let p := p.advance
      let c ← memory[p.fmt]?
      if c = 'u' then
        let p ← p.printUnsignedLong
        pure (.again p.advance)
      else
        let p := (p.tmPutchar '%').tmPutchar 'l'
        if c = nul then pure (.done p) else pure (.again (p.tmPutchar c).advance)
    else if c = 'd' then
      let p ← p.printInt
      pure (.again p.advance)
    else if c = 's' then
      let p ← p.printString
      pure (.again p.advance)
    else if c = '%' then pure (.again (p.tmPutchar '%').advance)
    else if c = nul then pure (.done p)
    else pure (.again ((p.tmPutchar '%').tmPutchar c).advance)

/-- The loop of `tm_printf`, for at most `fuel` passes. -/
def tmPrintfLoop (memory : List Char) : ℕ → Printer w → Option (Printer w)
  | 0, _ => none
  | fuel + 1, p => do
      match ← tmPrintfBody memory p with
      | .again p => tmPrintfLoop memory fuel p
      | .done p => pure p

end Printer

/-- `tm_printf`: what it prints, and the arguments that it has not used. -/
def tmPrintf (fuel : ℕ) (fmt : CString) (args : List (Arg w)) :
    Option (List Char × List (Arg w)) := do
  let p ← Printer.tmPrintfLoop fmt.memory fuel ⟨0, args, []⟩
  pure (p.output, p.ap)

/-! ## The grammar of formats -/

/-- The types of variable arguments. -/
inductive ArgType where
  | int
  | unsignedLong
  | string
  deriving DecidableEq

namespace Arg

/-- The type of an argument. -/
def type : Arg w → ArgType
  | .int _ => .int
  | .unsignedLong _ => .unsignedLong
  | .string _ => .string

/-- How an argument is printed. -/
def text : Arg w → List Char
  | .int val => Decimal.ofInt val.toInt
  | .unsignedLong val => Nat.toDigits 10 val.toNat
  | .string (some s) => s.chars
  | .string none => "(null)".toList

end Arg

/-- The tokens of a format: a plain character, a conversion, `%%`, the unknown directives `%lc` and
`%c`, and the directives that the end of the format cuts off. -/
inductive Token where
  | plain (c : Char)
  | convert (type : ArgType)
  | percent
  | longOther (c : Char)
  | other (c : Char)
  | finalLong
  | finalPercent
  deriving DecidableEq

/-- The tokens of a format from left to right. -/
def tokens : List Char → List Token
  | [] => []
  | ['%'] => [.finalPercent]
  | ['%', 'l'] => [.finalLong]
  | '%' :: 'l' :: 'u' :: fmt => .convert .unsignedLong :: tokens fmt
  | '%' :: 'l' :: c :: fmt => .longOther c :: tokens fmt
  | '%' :: 'd' :: fmt => .convert .int :: tokens fmt
  | '%' :: 's' :: fmt => .convert .string :: tokens fmt
  | '%' :: '%' :: fmt => .percent :: tokens fmt
  | '%' :: c :: fmt => .other c :: tokens fmt
  | c :: fmt => .plain c :: tokens fmt

namespace Token

/-- What a token prints if it takes no argument. -/
def text : Token → List Char
  | plain c => [c]
  | convert _ => []
  | percent => ['%']
  | longOther c => ['%', 'l', c]
  | other c => ['%', c]
  | finalLong => ['%', 'l']
  | finalPercent => []

/-- The argument that a token takes. -/
def argType : Token → Option ArgType
  | convert type => some type
  | _ => none

/-- The token is a directive that the end of the format cuts off. -/
def CutOff (token : Token) : Prop :=
  token = .finalLong ∨ token = .finalPercent

end Token

/-- The format ends inside a directive. -/
def EndsInDirective (fmt : List Char) : Prop :=
  ∃ token ∈ tokens fmt, token.CutOff

/-- The types of the arguments that the tokens take, in order. -/
def argTypes (ts : List Token) : List ArgType :=
  ts.filterMap Token.argType

/-- The renderings of the tokens, one after the other. -/
def render : List Token → List (Arg w) → List Char
  | [], _ => []
  | .convert _ :: ts, arg :: args => arg.text ++ render ts args
  | .convert _ :: _, [] => []
  | t :: ts, args => t.text ++ render ts args

/-- The tokens without an argument print their text. -/
theorem render_text {token : Token} (hkind : token.argType = none) (ts : List Token)
    (args : List (Arg w)) : render (token :: ts) args = token.text ++ render ts args := by
  cases token with
  | convert type => cases hkind
  | _ => rfl

/-- They ask for no argument. -/
theorem arg_types_text {token : Token} (hkind : token.argType = none) (ts : List Token) :
    argTypes (token :: ts) = argTypes ts :=
  List.filterMap_cons_none hkind

/-- Only conversions take an argument. -/
theorem Token.eq_convert {token : Token} {type : ArgType} (hkind : token.argType = some type) :
    token = .convert type := by
  cases token with
  | convert type' => rw [Option.some.inj hkind]
  | _ => cases hkind

namespace Token

/-- The characters of a token. -/
def spelling : Token → List Char
  | plain c => [c]
  | convert .int => ['%', 'd']
  | convert .unsignedLong => ['%', 'l', 'u']
  | convert .string => ['%', 's']
  | percent => ['%', '%']
  | longOther c => ['%', 'l', c]
  | other c => ['%', c]
  | finalLong => ['%', 'l']
  | finalPercent => ['%']

/-- The token is complete, and its character makes it no other token. -/
def Complete : Token → Prop
  | plain c => c ≠ nul ∧ c ≠ '%'
  | longOther c => c ≠ nul ∧ c ≠ 'u'
  | other c => c ≠ nul ∧ c ≠ 'l' ∧ c ≠ 'd' ∧ c ≠ 's' ∧ c ≠ '%'
  | finalLong | finalPercent => False
  | _ => True

end Token

/-- A sequence of complete tokens, after which one may be cut off. -/
inductive Spelled : List Token → Prop where
  | nil : Spelled []
  | cutOff {token : Token} (h : token.CutOff) : Spelled [token]
  | cons {token : Token} {ts : List Token} (h : token.Complete) (hs : Spelled ts) :
      Spelled (token :: ts)

/-- A character that neither an empty nor a longer rest allows does not occur. -/
theorem ne_of_no_tail {c d : Char} {fmt : List Char} (hnil : c = d → fmt ≠ [])
    (hcons : ∀ next rest, c = d → fmt ≠ next :: rest) : c ≠ d := by
  intro h
  cases fmt with
  | nil => exact hnil h rfl
  | cons next rest => exact hcons next rest h rfl

/-- A character other than `%` is a token. -/
theorem tokens_plain {c : Char} (hc : c ≠ '%') (fmt : List Char) :
    tokens (c :: fmt) = .plain c :: tokens fmt := by
  rw [tokens] <;> simp [hc]

/-- A directive that is not known is a token. -/
theorem tokens_other {c : Char} (hl : c ≠ 'l') (hd : c ≠ 'd') (hs : c ≠ 's') (hc : c ≠ '%')
    (fmt : List Char) : tokens ('%' :: c :: fmt) = .other c :: tokens fmt := by
  rw [tokens] <;> simp [hl, hd, hs, hc]

/-- The tokens of a format spell it. -/
theorem tokens_spelling (fmt : List Char) : (tokens fmt).flatMap Token.spelling = fmt := by
  fun_induction tokens fmt <;> simp_all [Token.spelling]

/-- The tokens of a string are well formed. -/
theorem spelled_tokens {fmt : List Char} (hfmt : nul ∉ fmt) : Spelled (tokens fmt) := by
  fun_induction tokens fmt with
  | case1 => exact .nil
  | case2 => exact .cutOff (.inr rfl)
  | case3 => exact .cutOff (.inl rfl)
  | case4 fmt ih => exact .cons trivial (ih (by simp_all))
  | case5 c fmt hu ih => exact .cons ⟨by rintro rfl; simp at hfmt, hu⟩ (ih (by simp_all))
  | case6 fmt ih => exact .cons trivial (ih (by simp_all))
  | case7 fmt ih => exact .cons trivial (ih (by simp_all))
  | case8 fmt ih => exact .cons trivial (ih (by simp_all))
  | case9 c fmt hnil _ hcons hd hs hpercent ih =>
      have hl : c ≠ 'l' := ne_of_no_tail hnil hcons
      exact .cons ⟨by rintro rfl; simp at hfmt, hl, hd, hs, hpercent⟩ (ih (by simp_all))
  | case10 c fmt hnil _ _ _ _ _ _ hcons ih =>
      have hpercent : c ≠ '%' := ne_of_no_tail hnil hcons
      exact .cons ⟨by rintro rfl; simp at hfmt, hpercent⟩ (ih (by simp_all))

/-- The tokens of two formats in a row, unless the first ends inside a directive. -/
theorem tokens_append {fmt : List Char} (hfmt : ¬ EndsInDirective fmt) (fmt' : List Char) :
    tokens (fmt ++ fmt') = tokens fmt ++ tokens fmt' := by
  unfold EndsInDirective at hfmt
  fun_induction tokens fmt with
  | case9 c fmt hnil _ hcons hd hs hpercent ih =>
      show tokens ('%' :: c :: (fmt ++ fmt')) = _
      rw [tokens_other (ne_of_no_tail hnil hcons) hd hs hpercent, ih (by simp_all)]
      rfl
  | case10 c fmt hnil _ _ _ _ _ _ hcons ih =>
      show tokens (c :: (fmt ++ fmt')) = _
      rw [tokens_plain (ne_of_no_tail hnil hcons), ih (by simp_all)]
      rfl
  | _ => simp_all [Token.CutOff, tokens]

/-! ## The scanner reads tokens -/

namespace Printer

variable {first rest : List Char} {p : Printer w}

/-- Print a text for a token and move behind the token. -/
def consume (p : Printer w) (token : Token) (text : List Char) : Printer w :=
  { p with fmt := p.fmt + token.spelling.length, output := p.output ++ text }

/-- The scanner reads the characters of the token it stands at. -/
theorem read_token {token : Token} (hfmt : p.fmt = first.length) (k : ℕ) :
    (first ++ (token.spelling ++ rest))[p.fmt + k]? = (token.spelling ++ rest)[k]? := by
  rw [hfmt, read_after]

/-- A complete token that takes no argument is printed, and the scanner moves behind it. -/
theorem body_text {token : Token} (htoken : token.Complete) (hnone : token.argType = none)
    (hfmt : p.fmt = first.length) :
    tmPrintfBody (first ++ (token.spelling ++ rest)) p =
      some (.again (p.consume token token.text)) := by
  have hread : ∀ k, (first ++ (token.spelling ++ rest))[p.fmt + k]? = _ := read_token hfmt
  generalize first ++ (token.spelling ++ rest) = memory at hread
  cases token with
  | plain c =>
      obtain ⟨hnul, hpercent⟩ := htoken
      have hfirst : memory[p.fmt]? = some c := hread 0
      simp only [tmPrintfBody, hfirst, Option.bind_eq_bind, Option.bind_some, if_neg hnul,
        if_pos hpercent]
      rfl
  | percent =>
      have hfirst : memory[p.fmt]? = some '%' := hread 0
      have hsecond : memory[p.advance.fmt]? = some '%' := hread 1
      simp only [tmPrintfBody, hfirst, hsecond, Option.bind_eq_bind, Option.bind_some]
      rfl
  | longOther c =>
      obtain ⟨hnul, hu⟩ := htoken
      have hfirst : memory[p.fmt]? = some '%' := hread 0
      have hsecond : memory[p.advance.fmt]? = some 'l' := hread 1
      have hthird : memory[p.advance.advance.fmt]? = some c := hread 2
      simp only [tmPrintfBody, hfirst, hsecond, hthird, Option.bind_eq_bind, Option.bind_some,
        if_neg hu, if_neg hnul]
      simp [consume, tmPutchar, advance, Token.text, Token.spelling, nul]
  | other c =>
      obtain ⟨hnul, hl, hd, hs, hpercent⟩ := htoken
      have hfirst : memory[p.fmt]? = some '%' := hread 0
      have hsecond : memory[p.advance.fmt]? = some c := hread 1
      simp only [tmPrintfBody, hfirst, hsecond, Option.bind_eq_bind, Option.bind_some,
        if_neg hnul, if_neg hl, if_neg hd, if_neg hs, if_neg hpercent]
      simp [consume, tmPutchar, advance, Token.text, Token.spelling, nul]
  | convert type => cases hnone
  | finalLong | finalPercent => exact htoken.elim

/-- A conversion delivers the next argument, prints it, and the scanner moves behind it. -/
theorem body_convert (hlow : 32 ≤ w) (hw : w ≤ 64) {arg : Arg w} {args : List (Arg w)}
    (hap : p.ap = arg :: args) (hfmt : p.fmt = first.length) :
    tmPrintfBody (first ++ ((Token.convert arg.type).spelling ++ rest)) p =
      some (.again ({ p with ap := args }.consume (.convert arg.type) arg.text)) := by
  have hread : ∀ k, (first ++ ((Token.convert arg.type).spelling ++ rest))[p.fmt + k]? = _ :=
    read_token hfmt
  generalize first ++ ((Token.convert arg.type).spelling ++ rest) = memory at hread
  cases arg with
  | int val =>
      have hfirst : memory[p.fmt]? = some '%' := hread 0
      have hsecond : memory[p.advance.fmt]? = some 'd' := hread 1
      have hprint : p.advance.printInt =
          some ({ p.advance with ap := args }.puts (Decimal.ofInt val.toInt)) := by
        simp only [printInt, advance, hap]
        exact tm_print_int_eq hlow hw _ val
      simp only [tmPrintfBody, hfirst, hsecond, hprint, Option.bind_eq_bind, Option.bind_some]
      rfl
  | unsignedLong val =>
      have hfirst : memory[p.fmt]? = some '%' := hread 0
      have hsecond : memory[p.advance.fmt]? = some 'l' := hread 1
      have hthird : memory[p.advance.advance.fmt]? = some 'u' := hread 2
      have hprint : p.advance.advance.printUnsignedLong =
          some ({ p.advance.advance with ap := args }.puts (Nat.toDigits 10 val.toNat)) := by
        simp only [printUnsignedLong, advance, hap]
        exact tm_print_unsigned_long_eq hw _ val
      simp only [tmPrintfBody, hfirst, hsecond, hthird, hprint, Option.bind_eq_bind,
        Option.bind_some]
      rfl
  | string s =>
      have hfirst : memory[p.fmt]? = some '%' := hread 0
      have hsecond : memory[p.advance.fmt]? = some 's' := hread 1
      have hprint : p.advance.printString =
          some ({ p.advance with ap := args }.puts (Arg.string s : Arg w).text) := by
        cases s with
        | none =>
            simp only [printString, advance, hap]
            exact put_string_memory _ (by decide) _
        | some s =>
            simp only [printString, advance, hap]
            exact put_string_memory s.chars s.nul_not_mem _
      simp only [tmPrintfBody, hfirst, hsecond, hprint, Option.bind_eq_bind, Option.bind_some]
      rfl

/-- A directive that the terminator cuts off ends the scan at the terminator. -/
theorem body_cut_off {token : Token} (htoken : token.CutOff) (hfmt : p.fmt = first.length) :
    tmPrintfBody (first ++ (token.spelling ++ [nul])) p =
      some (.done (p.consume token token.text)) := by
  have hread : ∀ k, (first ++ (token.spelling ++ [nul]))[p.fmt + k]? = _ := read_token hfmt
  generalize first ++ (token.spelling ++ [nul]) = memory at hread
  rcases htoken with rfl | rfl
  · have hfirst : memory[p.fmt]? = some '%' := hread 0
    have hsecond : memory[p.advance.fmt]? = some 'l' := hread 1
    have hthird : memory[p.advance.advance.fmt]? = some nul := hread 2
    simp only [tmPrintfBody, hfirst, hsecond, hthird, Option.bind_eq_bind, Option.bind_some]
    simp [consume, tmPutchar, advance, Token.text, Token.spelling, nul]
  · have hfirst : memory[p.fmt]? = some '%' := hread 0
    have hsecond : memory[p.advance.fmt]? = some nul := hread 1
    simp only [tmPrintfBody, hfirst, hsecond, Option.bind_eq_bind, Option.bind_some]
    simp [consume, advance, Token.text, Token.spelling, nul]

/-- The scanner stops at the terminator. -/
theorem body_nul (hfmt : p.fmt = first.length) :
    tmPrintfBody (first ++ [nul]) p = some (.done p) := by
  have hread : (first ++ [nul])[p.fmt]? = some nul := by
    rw [hfmt]
    exact read_after first [nul] 0
  simp [tmPrintfBody, hread]

/-- One more pass of the loop. -/
theorem loop_again {memory : List Char} {fuel : ℕ} {p' : Printer w}
    (h : tmPrintfBody memory p = some (.again p')) :
    tmPrintfLoop memory (fuel + 1) p = tmPrintfLoop memory fuel p' := by
  simp [tmPrintfLoop, h]

/-- The last pass of the loop. -/
theorem loop_done {memory : List Char} {fuel : ℕ} {p' : Printer w}
    (h : tmPrintfBody memory p = some (.done p')) :
    tmPrintfLoop memory (fuel + 1) p = some p' := by
  simp [tmPrintfLoop, h]

/-- The loop prints the renderings of the tokens that are left, uses exactly their arguments and
stops at the terminator. -/
theorem loop_spelled (hlow : 32 ≤ w) (hw : w ≤ 64) {ts : List Token} (hts : Spelled ts)
    {args others : List (Arg w)} (htypes : args.map Arg.type = argTypes ts) {fuel : ℕ}
    (hfuel : ts.length < fuel) (hfmt : p.fmt = first.length) (hap : p.ap = args ++ others) :
    tmPrintfLoop (first ++ (ts.flatMap Token.spelling ++ [nul])) fuel p =
      some ⟨first.length + (ts.flatMap Token.spelling).length, others,
        p.output ++ render ts args⟩ := by
  obtain ⟨fuel, rfl⟩ : ∃ more, fuel = more + 1 := ⟨fuel - 1, by omega⟩
  induction hts generalizing first args p fuel with
  | nil =>
      obtain rfl : args = [] := List.map_eq_nil_iff.mp htypes
      obtain ⟨fmt, ap, output⟩ := p
      obtain rfl : fmt = first.length := hfmt
      obtain rfl : ap = others := hap
      show tmPrintfLoop (first ++ [nul]) (fuel + 1) ⟨first.length, ap, output⟩ =
        some ⟨first.length, ap, output ++ []⟩
      rw [loop_done (body_nul rfl), List.append_nil]
  | @cutOff token h =>
      have hkind : token.argType = none := by rcases h with rfl | rfl <;> rfl
      rw [arg_types_text hkind] at htypes
      obtain rfl : args = [] := List.map_eq_nil_iff.mp htypes
      have htext : render [token] ([] : List (Arg w)) = token.text := by
        rw [render_text hkind]
        exact List.append_nil _
      rw [List.flatMap_singleton, loop_done (body_cut_off h hfmt), htext, ← hfmt, consume, hap,
        List.nil_append]
  | @cons token ts h hs ih =>
      obtain ⟨fuel, rfl⟩ : ∃ more, fuel = more + 1 := ⟨fuel - 1, by simp at hfuel; omega⟩
      have hmemory : first ++ ((token :: ts).flatMap Token.spelling ++ [nul]) =
          first ++ (token.spelling ++ (ts.flatMap Token.spelling ++ [nul])) := by
        rw [List.flatMap_cons, List.append_assoc]
      cases hkind : token.argType with
      | none =>
          rw [arg_types_text hkind] at htypes
          have hnext : (p.consume token token.text).fmt = (first ++ token.spelling).length := by
            rw [List.length_append, ← hfmt]
            rfl
          rw [hmemory, loop_again (body_text h hkind hfmt), ← List.append_assoc,
            ih htypes hnext hap fuel (by simpa using hfuel), render_text hkind]
          simp [consume, Nat.add_assoc]
      | some type =>
          obtain rfl := Token.eq_convert hkind
          have hsome : argTypes (.convert type :: ts) = type :: argTypes ts := rfl
          rw [hsome] at htypes
          obtain ⟨arg, args, rfl, rfl, hargs⟩ := List.map_eq_cons_iff.mp htypes
          have htext : render (.convert arg.type :: ts) (arg :: args) =
              arg.text ++ render ts args := by simp [render]
          rw [List.cons_append] at hap
          have hnext : ({ p with ap := args ++ others }.consume (.convert arg.type) arg.text).fmt =
              (first ++ (Token.convert arg.type).spelling).length := by
            rw [List.length_append, ← hfmt]
            rfl
          rw [hmemory, loop_again (body_convert hlow hw hap hfmt), ← List.append_assoc,
            ih hargs hnext rfl fuel (by simpa using hfuel), htext]
          simp [consume, Nat.add_assoc]

end Printer

/-! ## What `tm_printf` prints -/

/-- Every token has a character. -/
theorem tokens_length_le (fmt : List Char) : (tokens fmt).length ≤ fmt.length := by
  have hpos : ∀ token : Token, 1 ≤ token.spelling.length := by
    intro token
    cases token with
    | convert type => cases type <;> decide
    | _ => simp [Token.spelling]
  calc (tokens fmt).length
      ≤ ((tokens fmt).flatMap Token.spelling).length := by
        generalize tokens fmt = ts
        induction ts with
        | nil => exact Nat.le_refl 0
        | cons token ts ih =>
            have := hpos token
            simp only [List.flatMap_cons, List.length_append, List.length_cons]
            omega
    _ = fmt.length := by rw [tokens_spelling]

/-- The arguments of the first tokens are rendered first. -/
theorem render_append {ts : List Token} {args : List (Arg w)}
    (htypes : args.map Arg.type = argTypes ts) (ts' : List Token) (args' : List (Arg w)) :
    render (ts ++ ts') (args ++ args') = render ts args ++ render ts' args' := by
  induction ts generalizing args with
  | nil =>
      obtain rfl : args = [] := List.map_eq_nil_iff.mp htypes
      rfl
  | cons token ts ih =>
      cases token with
      | convert type =>
          have hsome : argTypes (.convert type :: ts) = type :: argTypes ts := rfl
          rw [hsome] at htypes
          obtain ⟨arg, args, rfl, -, hargs⟩ := List.map_eq_cons_iff.mp htypes
          show arg.text ++ render (ts ++ ts') (args ++ args') = _
          rw [ih hargs, ← List.append_assoc]
          rfl
      | _ =>
          have hrest : render (ts ++ ts') (args ++ args') = _ := ih htypes
          simp only [List.cons_append, render, hrest, List.append_assoc]

/-- With enough fuel, `tm_printf` prints the renderings of the tokens of its format and leaves the
arguments behind them alone. -/
theorem tm_printf_eq (hlow : 32 ≤ w) (hw : w ≤ 64) (fmt : CString) {args others : List (Arg w)}
    (htypes : args.map Arg.type = argTypes (tokens fmt.chars)) {fuel : ℕ}
    (hfuel : fmt.chars.length < fuel) :
    tmPrintf fuel fmt (args ++ others) = some (render (tokens fmt.chars) args, others) := by
  have hshort := tokens_length_le fmt.chars
  have hloop : Printer.tmPrintfLoop ([] ++ ((tokens fmt.chars).flatMap Token.spelling ++ [nul]))
      fuel ⟨0, args ++ others, []⟩ = some _ :=
    Printer.loop_spelled hlow hw (spelled_tokens fmt.nul_not_mem) htypes
      (Nat.lt_of_le_of_lt hshort hfuel) rfl rfl
  rw [tokens_spelling, List.nil_append] at hloop
  simp only [tmPrintf, CString.memory, hloop, Option.bind_eq_bind, Option.bind_some]
  rfl

/-- For every format and arguments of the types it asks for, `tm_printf` returns, has used exactly
these arguments, and has printed the renderings of the tokens of the format from left to right. If
the format consists of two parts and the first does not end inside a directive, this is what the
first part prints followed by what the second part prints with the arguments that the first part
leaves. -/
theorem tm_printf_renders (hw : w = 32 ∨ w = 64) (fmt : CString) (args others : List (Arg w))
    (htypes : args.map Arg.type = argTypes (tokens fmt.chars)) (fuel : ℕ)
    (hfuel : fmt.chars.length < fuel) :
    tmPrintf fuel fmt (args ++ others) = some (render (tokens fmt.chars) args, others) ∧
    ∀ f g : CString, fmt.chars = f.chars ++ g.chars → ¬ EndsInDirective f.chars →
      ∃ textF textG argsG,
        tmPrintf fuel f (args ++ others) = some (textF, argsG ++ others) ∧
        tmPrintf fuel g (argsG ++ others) = some (textG, others) ∧
        tmPrintf fuel fmt (args ++ others) = some (textF ++ textG, others) := by
  have hlow : 32 ≤ w := by omega
  have hhigh : w ≤ 64 := by omega
  refine ⟨tm_printf_eq hlow hhigh fmt htypes hfuel, fun f g hsplit hends ↦ ?_⟩
  have htokens := tokens_append hends g.chars
  have hargs :
      argTypes (tokens fmt.chars) = argTypes (tokens f.chars) ++ argTypes (tokens g.chars) := by
    rw [hsplit, htokens, argTypes, List.filterMap_append]
    rfl
  rw [hargs] at htypes
  obtain ⟨argsF, argsG, rfl, hargsF, hargsG⟩ := List.map_eq_append_iff.mp htypes
  have hlength : fmt.chars.length = f.chars.length + g.chars.length := by
    rw [hsplit, List.length_append]
  refine ⟨render (tokens f.chars) argsF, render (tokens g.chars) argsG, argsG, ?_, ?_, ?_⟩
  · rw [List.append_assoc]
    exact tm_printf_eq hlow hhigh f hargsF (by omega)
  · exact tm_printf_eq hlow hhigh g hargsG (by omega)
  · rw [← hargs] at htypes
    rw [tm_printf_eq hlow hhigh fmt htypes hfuel, hsplit, htokens, render_append hargsF]

/-- A format with all conversions, an unknown directive and a final `%l`, whose first eight
characters end in `%d`. -/
theorem tm_printf_renders_all :
    ∃ f g fmt : CString, f.chars = "cycles%d".toList ∧ g.chars = " %lu %s %q%l".toList ∧
      fmt.chars = f.chars ++ g.chars ∧
      tmPrintf 40 fmt ([.int (-2147483648), .unsignedLong 42, .string none] ++ []) =
        some ("cycles-2147483648 42 (null) %q%l".toList, ([] : List (Arg 64))) ∧
      ∃ textF textG argsG,
        tmPrintf 40 f ([.int (-2147483648), .unsignedLong 42, .string none] ++ []) =
          some (textF, argsG ++ ([] : List (Arg 64))) ∧
        tmPrintf 40 g (argsG ++ []) = some (textG, ([] : List (Arg 64))) ∧
        tmPrintf 40 fmt ([.int (-2147483648), .unsignedLong 42, .string none] ++ []) =
          some (textF ++ textG, ([] : List (Arg 64))) := by
  let f : CString := ⟨"cycles%d".toList, by decide⟩
  let g : CString := ⟨" %lu %s %q%l".toList, by decide⟩
  let fmt : CString := ⟨f.chars ++ g.chars, by decide⟩
  obtain ⟨hfmt, hsplit⟩ := tm_printf_renders (w := 64) (.inr rfl) fmt
    [.int (-2147483648), .unsignedLong 42, .string none] [] (by decide) 40 (by decide)
  have hends : ¬ EndsInDirective f.chars := by
    unfold EndsInDirective Token.CutOff
    decide
  have htext : render (tokens fmt.chars)
      [.int (-2147483648), .unsignedLong 42, (.string none : Arg 64)] =
      "cycles-2147483648 42 (null) %q%l".toList := by decide
  refine ⟨f, g, fmt, rfl, rfl, rfl, ?_, hsplit f g rfl hends⟩
  rw [hfmt, htext]

end ThreadMetric.Printf
