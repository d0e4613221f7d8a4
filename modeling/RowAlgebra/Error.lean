import RowAlgebra.Config
import RowAlgebra.Json.Codec
import RowAlgebra.Update.Evaluation

/-! The errors of the whole library under one type, each with the part it came from. -/

namespace RowAlgebra

inductive Error where
  | config (cause : ConfigError)
  | codec (cause : CodecError)
  | eval (cause : EvalError)
deriving DecidableEq

namespace Error

def origin : Error → String
  | config _ => "config"
  | codec _ => "codec"
  | eval _ => "eval"

def message : Error → String
  | config cause => cause.message
  | codec cause => cause.message
  | eval cause => cause.message

def display (error : Error) : String := s!"{error.origin}: {error.message}"

end Error

end RowAlgebra
