import Assay.Options.Request

/-! # Settings

Requests to change options and questions about them, carried out one after the other. Levels are
given by words, so that any request can be refused.
-/

namespace Assay.Script

inductive Setting where
  | trace (level flags : String)
  | condition (level word : String) (shown : Bool)
  | traceAll
  /-- Asks for the map of a level. It stays that of the options, so it shows what the options
  show once all is done. -/
  | conditions (level : String)
  /-- Asks for the flags of a level. -/
  | flags (level : String)

/-- What is told of a setting. -/
structure SettingReport where
  refused : Option OptionsError := none
  /-- The level whose map was asked for. -/
  map : Option Category := none
  flags : Option (List Condition) := none
  /-- The options afterwards. -/
  after : Options

namespace Setting

/-- Carries out a change, which leaves the options as they are if it is refused. -/
def apply (o : Options) : Except OptionsError Options → SettingReport
  | .ok o' => { after := o' }
  | .error e => { refused := some e, after := o }

/-- Answers a question about a level. -/
def ask (o : Options) (level : String) (answer : Category → SettingReport) : SettingReport :=
  match Options.category level with
  | .ok c => answer c
  | .error e => { refused := some e, after := o }

def carryOut (o : Options) : Setting → SettingReport
  | .trace level text => apply o ((Options.Request.trace level (some text)).carryOut o)
  | .condition level word shown =>
    apply o ((Options.Request.condition level word shown).carryOut o)
  | .traceAll => apply o (Options.Request.traceAll.carryOut o)
  | .conditions level => ask o level fun c => { map := some c, after := o }
  | .flags level => ask o level fun c => { flags := some c.conditions, after := o }

/-- Carries out settings one after the other; the options in the end come last. -/
def carryOutAll (o : Options) : List Setting → List SettingReport × Options
  | [] => ([], o)
  | s :: rest =>
    let report := s.carryOut o
    let (reports, final) := carryOutAll report.after rest
    (report :: reports, final)

end Setting

end Assay.Script
