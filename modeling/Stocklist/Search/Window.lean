/-
  Stocklist/Search/Window.lean
  ============================
  **The part of a list of matches that one page shows.**

  Pages count from 1, and page `p` covers the positions from `(p - 1) * size` up to
  `p * size`, clamped to the number of matches.  A page past the end is empty.  All
  counts are 64-bit words, and a product that leaves them stays at the largest word;
  the clamp to the number of matches hides that.
-/

namespace Stocklist

/-- The product of two words, or the largest word where that does not fit. -/
def saturatingMul (a b : UInt64) : UInt64 :=
  if a.toNat * b.toNat < UInt64.size then a * b else UInt64.ofNat (UInt64.size - 1)

structure Window where
  /-- Position of the first match shown, from 0. -/
  start : UInt64
  /-- Position after the last match shown. -/
  stop : UInt64
  /-- Position of the first match shown, from 1; equal to `stop` on an empty page. -/
  rangeLeft : UInt64
  /-- Position of the last match shown, from 1. -/
  rangeRight : UInt64
deriving DecidableEq, Repr

namespace Window

/-- The window of the given page, where `size` matches make a page and there are `count`
    of them.  A page below 1 counts as the first. -/
def ofPage (count : UInt64) (page : Int64) (size : UInt64) : Window :=
  let page := (max page 1).toUInt64
  let start := min count (saturatingMul (page - 1) size)
  let stop := min count (saturatingMul page size)
  ⟨start, stop, min (start + 1) stop, stop⟩

def size (w : Window) : UInt64 :=
  w.stop - w.start

def isEmpty (w : Window) : Bool :=
  w.start = w.stop

def slice {α : Type} (w : Window) (matching : List α) : List α :=
  (matching.drop w.start.toNat).take w.size.toNat

end Window

end Stocklist
