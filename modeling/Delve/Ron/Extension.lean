/-!
# Extensions of object notation

A text may begin with attributes that switch extensions on. They loosen or tighten how records and
optional values are written.
-/

namespace Delve.Ron

/-- What an attribute can switch on. -/
inductive Extension where
  /-- A wrapper around one value need not be written. The data here have none. -/
  | unwrapNewtypes
  /-- An optional value that is there may be written without `Some`. -/
  | implicitSome
  /-- The fields of a record that `Some` holds stand in its own parentheses. -/
  | unwrapVariantNewtypes
  /-- The names of records must be written. -/
  | explicitStructNames
deriving DecidableEq, Repr

def Extension.ofName? : String → Option Extension
  | "unwrap_newtypes" => some .unwrapNewtypes
  | "implicit_some" => some .implicitSome
  | "unwrap_variant_newtypes" => some .unwrapVariantNewtypes
  | "explicit_struct_names" => some .explicitStructNames
  | _ => none

abbrev Dialect := List Extension

end Delve.Ron
