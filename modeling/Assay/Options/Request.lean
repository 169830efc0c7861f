import Assay.Options.Basic

/-! # Requests to options

What options show is changed by requests, carried out one after the other. A request that is
refused leaves the options as they are.
-/

namespace Assay.Options

/-- A request to change what options show. Levels and conditions are given by words. -/
inductive Request where
  /-- Shows what the flags stand for and hides the rest of the level; all of it without flags. -/
  | trace (level : String) (flags : Option String)
  | condition (level word : String) (shown : Bool)
  | traceAll
  deriving DecidableEq, Repr

namespace Request

def carryOut (o : Options) : Request → Except OptionsError Options
  | .trace level flags => (category level).bind (o.setTrace · (flags.getD ""))
  | .condition level word shown => (category level).bind (o.setCondition · word shown)
  | .traceAll => .ok o.traceAll

/-- The options after a request. -/
def after (o : Options) (r : Request) : Options :=
  match r.carryOut o with
  | .ok o' => o'
  | .error _ => o

/-- The options after requests that are carried out one after the other. -/
def afterAll (o : Options) (requests : List Request) : Options :=
  requests.foldl after o

end Request

end Assay.Options
