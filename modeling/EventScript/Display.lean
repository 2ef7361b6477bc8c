/-! Display values, the nested texts, lists and records that a script is shown as. -/

namespace EventScript

inductive Display where
  | text (value : String)
  | list (items : List Display)
  | record (fields : List (String × Display))
deriving Repr

end EventScript
