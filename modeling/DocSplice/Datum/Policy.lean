import DocSplice.Datum.Basic
import DocSplice.Policy

/-!
# Policies in data

A policy is written as its name, or as an object with its name as the only key and nothing as the value.
-/
namespace DocSplice

/-- Why a datum is no policy. -/
inductive PolicyDatumError where
  | unknownName (n : Text)
  | notNameOrObject (d : Datum)
  | notOneKey
  | notNothing (d : Datum)

/-- What a message says about the error. -/
def PolicyDatumError.message : PolicyDatumError → Text
  | unknownName n =>
    "unknown variant `".toList ++ n ++ "`, expected ".toList
      ++ " or ".toList.intercalate (Policy.all.map fun p => '`' :: p.name ++ ['`'])
  | notNameOrObject d => "invalid type: ".toList ++ d.kind ++ ", expected string or map".toList
  | notOneKey => "invalid value: map, expected map with a single key".toList
  | notNothing d => "invalid type: ".toList ++ d.kind ++ ", expected unit".toList

namespace Policy

/-- The policy with the given name, or the error that there is none. -/
def ofDatumName (n : Text) : Except PolicyDatumError Policy :=
  match ofName? n with
  | some p => .ok p
  | none => .error (.unknownName n)

/-- The policy that a datum stands for. -/
def ofDatum : Datum → Except PolicyDatumError Policy
  | .string n => ofDatumName n
  | .object [(n, value)] =>
    match ofDatumName n, value with
    | .ok p, .null => .ok p
    | .ok _, d => .error (.notNothing d)
    | .error e, _ => .error e
  | .object _ => .error .notOneKey
  | d => .error (.notNameOrObject d)

end Policy
end DocSplice
