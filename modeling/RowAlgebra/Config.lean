import RowAlgebra.Like.Escaper
import RowAlgebra.Toml.Reader

/-! Configuration of queries: the escape character of patterns and their wildcards. What is
not configured keeps its default, and a name that is not known is an error. -/

namespace RowAlgebra

inductive ConfigError where
  | parse
  | escapeIsWildcard (escape : Char)
  | missingWildcard (wildcard : Char)
deriving DecidableEq

def ConfigError.message : ConfigError → String
  | parse => "config parse failed"
  | escapeIsWildcard escape => s!"like escape character '{escape}' is also listed as a wildcard"
  | missingWildcard wildcard => s!"like wildcard set must include '{wildcard}'"

structure LikeConfig where
  escape : Char
  wildcards : List Char
deriving DecidableEq

namespace LikeConfig

def standard : LikeConfig := ⟨Like.standardEscape, Like.standardWildcards⟩

instance : Inhabited LikeConfig := ⟨standard⟩

/-- The escaper of a configuration. The standard wildcards have to be among the configured
ones, and the escape character must not. -/
def escaper (config : LikeConfig) : Except ConfigError Like.Escaper :=
  match Like.standardWildcards.find? (fun wildcard => wildcard ∉ config.wildcards) with
  | some wildcard => .error (.missingWildcard wildcard)
  | none =>
    if config.escape ∈ config.wildcards then .error (.escapeIsWildcard config.escape)
    else .ok (Like.Escaper.withWildcards config.escape config.wildcards)

def char? : Toml.Value → Option Char
  | .text content =>
    match content.toList with
    | [char] => some char
    | _ => none
  | _ => none

def chars? : Toml.Value → Option (List Char)
  | .list _ items => items.mapM char?
  | _ => none

def set? (config : LikeConfig) (key : String) (value : Toml.Value) : Option LikeConfig :=
  if key = "escape" then (char? value).map fun escape => { config with escape }
  else if key = "wildcards" then (chars? value).map fun wildcards => { config with wildcards }
  else none

/-- Reads a table, or a list of the escape character and the wildcards. -/
def ofToml? : Toml.Value → Option LikeConfig
  | .table _ entries => entries.foldlM (fun config (key, value) => config.set? key value) standard
  | .list _ [] => some standard
  | .list _ [escape] => standard.set? "escape" escape
  | .list _ (escape :: wildcards :: _) =>
    (standard.set? "escape" escape).bind fun config => config.set? "wildcards" wildcards
  | .text _ | .literal _ => none

end LikeConfig

structure QueryConfig where
  like : LikeConfig
deriving DecidableEq

namespace QueryConfig

def standard : QueryConfig := ⟨.standard⟩

instance : Inhabited QueryConfig := ⟨standard⟩

def ofEntries? (entries : Toml.Entries) : Option QueryConfig :=
  entries.foldlM (fun config (key, value) =>
    if key = "like" then (LikeConfig.ofToml? value).map fun like => { config with like } else none) standard

def ofText (text : String) : Except ConfigError QueryConfig :=
  match (Toml.read? text).bind ofEntries? with
  | some config => .ok config
  | none => .error .parse

end QueryConfig

end RowAlgebra
