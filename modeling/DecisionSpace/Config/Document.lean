/-! # Documents

A document is what a configuration file says, before its settings are looked
up: scalars, lists and maps.  A map keeps its entries as they stand, so that a
repeated key can still be seen. -/
set_option autoImplicit false
namespace DecisionSpace

inductive Document where
  | null
  | bool (b : Bool)
  | int (i : Int)
  | float (x : Float)
  | text (s : String)
  /-- A date or a time, which no setting takes. -/
  | moment
  | list (items : List Document)
  | map (entries : List (Document × Document))
  deriving Inhabited

end DecisionSpace
