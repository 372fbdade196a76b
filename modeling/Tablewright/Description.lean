import Tablewright.Dao.Basic
import Tablewright.Entity.Basic
import Tablewright.Model.Basic
import Tablewright.Value.Basic

/-! Entities, data access and models as values, for a reader who wants the facts and not the
sources. -/

namespace Tablewright

namespace FinderArg

def value (a : FinderArg) : Value := .record [
  ("name", .text a.name),
  ("column", .text a.column),
  ("entity_type", .text a.entityType.name),
  ("is_sequence", .flag a.isSequence)]

end FinderArg

namespace Finder

def value (f : Finder) : Value := .record [
  ("name", .text f.name),
  ("args", .list (f.args.map FinderArg.value)),
  ("arity", .text f.arity.name),
  ("lookup", .text f.lookup.name),
  ("columns", .texts f.columns)]

end Finder

namespace EntityField

def value (f : EntityField) : Value := .record [
  ("name", .text f.name),
  ("column", .text f.column),
  ("entity_type", .text f.entityType.name),
  ("serial_name", .optionalText f.serialName),
  ("is_primary_key", .flag f.isPrimaryKey)]

end EntityField

namespace Entity

def value (e : Entity) : Value := .record [
  ("name", .text e.name),
  ("collection_name", .text e.collectionName),
  ("table_name", .text e.tableName),
  ("is_read_only", .flag e.isReadOnly),
  ("fields", .list (e.fields.map EntityField.value))]

end Entity

namespace DaoField

def value (f : DaoField) : Value := .record [
  ("name", .text f.name),
  ("column", .text f.column),
  ("entity_type", .text f.entityType.name)]

end DaoField

namespace Dao

def value (d : Dao) : Value := .record [
  ("name", .text d.name),
  ("collection_name", .text d.collectionName),
  ("table_name", .text d.tableName),
  ("convention", .text d.convention.name),
  ("primary_key", d.primaryKey.value),
  ("update_fields", .list (d.updateFields.map DaoField.value)),
  ("sets_created_at", .flag d.setsCreatedAt),
  ("sets_updated_at", .flag d.setsUpdatedAt),
  ("sets_user_id", .flag d.setsUserId),
  ("has_user_id_getter", .flag d.hasUserIdGetter),
  ("methods", .list (d.methods.map Finder.value))]

end Dao

namespace ModelColumn

def value (c : ModelColumn) : Value := .record [
  ("column", .text c.column),
  ("field", .text c.field),
  ("plural_field", .text c.pluralField),
  ("entity_type", .text c.entityType.name),
  ("filterable", .flag c.filterable),
  ("sort", .optionalText (c.sort.map SortOrder.name))]

end ModelColumn

namespace Model

def value (m : Model) : Value := .record [
  ("name", .text m.name),
  ("collection_name", .text m.collectionName),
  ("dao_field", .text m.daoField),
  ("is_read_only", .flag m.isReadOnly),
  ("primary_key", m.primaryKey.value),
  ("columns", .list (m.columns.map ModelColumn.value)),
  ("finders", .list (m.finders.map Finder.value))]

end Model

end Tablewright
