import IrqBalance.Types

/-!
# `bitmap.c`: masks from text

`__bitmap_parse` reads the comma-separated hexadecimal chunks of `core_siblings`, `shared_cpu_map`,
`affinity_hint` and `IRQBALANCE_BANNED_CPUS`; `__bitmap_parselist` reads the cpu lists of `isolated`
and `nohz_full`. Both write the mask as they go and leave a partial mask behind when they return an
error. No caller looks at the return value.
-/

namespace IrqBalance

open CString

/-- `-EINVAL`. -/
def eInval : ℤ := -22

/-- `-ERANGE`. -/
def eRange : ℤ := -34

/-- `-EOVERFLOW`. -/
def eOverflow : ℤ := -75

/-! ### `__bitmap_parse` -/

/-- The local variables of `__bitmap_parse`. -/
structure BitmapParse where
  c : Char := '\x00'
  totaldigits : ℕ := 0
  ndigits : ℕ := 0
  nchunks : ℕ := 0
  nbits : ℕ := 0
  chunk : ℕ := 0
  maskp : Cpumask := 0

/-- `nbits_to_hold_value`, that is `fls`. -/
def nbitsToHoldValue (v : ℕ) : ℕ := if v = 0 then 0 else v.log2 + 1

/-- The end of a chunk: the error it ends the function with, or the variables after it. -/
def BitmapParse.endChunk (p : BitmapParse) : Except (ℤ × Cpumask) BitmapParse :=
  if p.ndigits = 0 then .error (eInval, p.maskp)
  else if p.nchunks = 0 ∧ p.chunk = 0 then .ok p
  else
    let mask := p.maskp <<< 32 ||| BitVec.ofNat nrCpus p.chunk
    let nbits := p.nbits + if p.nchunks = 0 then nbitsToHoldValue p.chunk else 32
    if nrCpus < nbits then .error (eOverflow, mask)
    else .ok { p with maskp := mask, nchunks := p.nchunks + 1, nbits := nbits }

/-- The two nested loops of `__bitmap_parse` on what is left of the buffer. -/
def bitmapParseFrom : Text → BitmapParse → ℤ × Cpumask
  | [], p =>
    match p.endChunk with
    | .error r => r
    | .ok p => (0, p.maskp)
  | c :: buf, p =>
    if isSpace c then bitmapParseFrom buf { p with c := c }
    -- embedded white space ends the function with success, unlike in `__bitmap_parselist`
    else if p.totaldigits ≠ 0 ∧ c ≠ '\x00' ∧ isSpace p.c then (0, p.maskp)
    else if c = '\x00' ∨ c = ',' then
      match p.endChunk with
      | .error r => r
      | .ok p =>
        if buf ≠ [] ∧ c = ',' then bitmapParseFrom buf { p with c := c, chunk := 0, ndigits := 0 }
        else (0, p.maskp)
    else if !isXDigit c then (eInval, p.maskp)
    else if 2 ^ 28 ≤ p.chunk then (eOverflow, p.maskp)
    else bitmapParseFrom buf { p with
      c := c
      chunk := 16 * p.chunk + unhex c
      ndigits := p.ndigits + 1
      totaldigits := p.totaldigits + 1 }

/-- `__bitmap_parse`: the return value and the mask it leaves. -/
def bitmapParse (buf : Text) : ℤ × Cpumask := bitmapParseFrom buf {}

/-- `cpumask_parse_user`, as its callers use it. -/
def cpumaskParseUser (buf : Text) : Cpumask := (bitmapParse buf).2

/-! ### `__bitmap_parselist` -/

/-- The local variables of `__bitmap_parselist`. The bounds `a` and `b` are `int`s in the source, and
their overflow is undefined; here they do not overflow. -/
structure BitmapParselist where
  c : Char := '\x00'
  totaldigits : ℕ := 0
  expDigit : Bool := true
  inRange : Bool := false
  a : ℕ := 0
  b : ℕ := 0
  maskp : Cpumask := 0

/-- The bits `a`, .., `b`. -/
def bitRange (a b : ℕ) : Cpumask := BitVec.ofNat nrCpus (2 ^ (b + 1) - 2 ^ a)

/-- The end of a cpu number or of a range. -/
def BitmapParselist.endRange (p : BitmapParselist) : Except (ℤ × Cpumask) BitmapParselist :=
  if ¬ p.a ≤ p.b then .error (eInval, p.maskp)
  else if nrCpus ≤ p.b then .error (eRange, p.maskp)
  else .ok { p with maskp := p.maskp ||| bitRange p.a p.b }

/-- The two nested loops of `__bitmap_parselist` on what is left of the buffer. -/
def bitmapParselistFrom : Text → BitmapParselist → ℤ × Cpumask
  | [], p =>
    match p.endRange with
    | .error r => r
    | .ok p => (0, p.maskp)
  | c :: buf, p =>
    if isSpace c then bitmapParselistFrom buf { p with c := c }
    else if p.totaldigits ≠ 0 ∧ c ≠ '\x00' ∧ isSpace p.c then (eInval, p.maskp)
    else if c = '\x00' ∨ c = ',' then
      match p.endRange with
      | .error r => r
      | .ok p =>
        if buf ≠ [] ∧ c = ',' then
          bitmapParselistFrom buf { p with
            c := c, expDigit := true, inRange := false, a := 0, b := 0 }
        else (0, p.maskp)
    else if c = '-' then
      if p.expDigit ∨ p.inRange then (eInval, p.maskp)
      else bitmapParselistFrom buf { p with c := c, b := 0, inRange := true, expDigit := true }
    else if !isDigit c then (eInval, p.maskp)
    else
      let b := 10 * p.b + (c.toNat - 48)
      bitmapParselistFrom buf { p with
        c := c
        b := b
        a := if p.inRange then p.a else b
        expDigit := false
        totaldigits := p.totaldigits + 1 }

/-- `cpulist_parse`, as its callers use it: the mask it leaves. -/
def cpulistParse (buf : Text) : Cpumask := (bitmapParselistFrom buf {}).2

example : cpumaskParseUser "1,0000000f\n".toList = 0x10000000f := by decide +kernel
example : cpulistParse "1-3,6\n".toList = 0x4e := by decide +kernel

end IrqBalance
