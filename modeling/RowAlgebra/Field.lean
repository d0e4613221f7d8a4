import RowAlgebra.Filter.Basic
import RowAlgebra.Select.Basic
import RowAlgebra.Text.Quoted
import RowAlgebra.Update.Basic
import RowAlgebra.Value.FieldType

/-! Field handles: a name, the entity that has the field, and the declared type of its
contents. Filters, updates and order clauses are built from handles, so an operand always
has the declared type of its field. -/

namespace RowAlgebra

structure Entity where
  path : String
deriving DecidableEq

structure Field (entity : Entity) (type : FieldType) where
  name : String
deriving DecidableEq, Hashable

structure FieldKey (entity : Entity) where
  name : String
deriving DecidableEq, Hashable

namespace FieldKey

variable {entity : Entity}

instance : Ord (FieldKey entity) := ⟨fun first second => compare first.name second.name⟩

instance : ToString (FieldKey entity) := ⟨name⟩

def entityPath (_ : FieldKey entity) : String := entity.path

def describe (key : FieldKey entity) : String := s!"FieldKey({Text.quoted key.name})"

end FieldKey

namespace Field

variable {entity : Entity} {type : FieldType}

def key (field : Field entity type) : FieldKey entity := ⟨field.name⟩

def describe (field : Field entity type) : String := s!"Field({Text.quoted field.name})"

def compare (field : Field entity type) (op : Comparison) (operand : type.Carrier) : Filter :=
  .field ⟨field.name, .comparison op (type.toValue operand)⟩

def member (field : Field entity type) (op : Membership) (operands : List type.Carrier) : Filter :=
  .field ⟨field.name, .membership op (operands.map type.toValue)⟩

def like (field : Field entity type) (escape : Char) (pattern : Like.Pattern) : Filter :=
  .field ⟨field.name, .pattern .like pattern escape⟩

def notLike (field : Field entity type) (escape : Char) (pattern : Like.Pattern) : Filter :=
  .field ⟨field.name, .pattern .notLike pattern escape⟩

def update (field : Field entity type) (kind : Update.Kind) (operand : type.Carrier) : Update :=
  ⟨field.name, kind, type.toValue operand⟩

def asc (field : Field entity type) : SelectOption := .orderBy ⟨field.name, .asc⟩

def desc (field : Field entity type) : SelectOption := .orderBy ⟨field.name, .desc⟩

end Field

/-- A disjunction of two conjunctions, as a list of one filter. -/
def Filter.either (left right : List Filter) : List Filter := [.or left right]

end RowAlgebra
