/-! # Notes for a log

What the library does is noted on a few channels, in the order in which it happens.
-/

namespace Assay

inductive Level where
  | debug
  | info
  | warning
  deriving DecidableEq, Repr

/-- The part of the library that makes a note. -/
inductive Channel where
  | clause
  | difference
  | results
  | run
  | loader
  deriving DecidableEq, Repr

structure Note where
  level : Level
  channel : Channel
  text : String
  deriving DecidableEq, Repr

end Assay
