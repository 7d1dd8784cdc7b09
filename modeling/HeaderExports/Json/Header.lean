import HeaderExports.Declaration
import HeaderExports.Json.Shape

/-!
# Headers as documents

A header is a record of its eight lists, and every declaration is a record of
its leaves. Reading a header takes any document of its shape.
-/

namespace HeaderExports

open Json (Document Shape ReadError)

namespace Parameter

/-- The shape of a parameter. -/
def shape : Shape := .record "ExportParameter" [("type", .text), ("name", .text)]

/-- A parameter as a document. -/
def toDocument (parameter : Parameter) : Document :=
  .record [("type", .text parameter.type), ("name", .text parameter.name)]

/-- The parameter in a document. -/
def ofDocument (document : Document) : Parameter :=
  ⟨(document.member "type").content, (document.member "name").content⟩

end Parameter

namespace FunctionDecl

/-- The shape of a function. -/
def shape : Shape :=
  .record "ExportFunction"
    [("name", .text), ("return_type", .text), ("parameters", .list Parameter.shape)]

/-- A function as a document. -/
def toDocument (function : FunctionDecl) : Document :=
  .record
    [("name", .text function.name), ("return_type", .text function.returnType),
     ("parameters", .list (function.parameters.map Parameter.toDocument))]

/-- The function in a document. -/
def ofDocument (document : Document) : FunctionDecl :=
  ⟨(document.member "name").content, (document.member "return_type").content,
   (document.member "parameters").items.map Parameter.ofDocument⟩

end FunctionDecl

namespace ConstantDecl

/-- The shape of a constant. -/
def shape : Shape := .record "ExportConstant" [("name", .text), ("value", .text)]

/-- A constant as a document. -/
def toDocument (constant : ConstantDecl) : Document :=
  .record [("name", .text constant.name), ("value", .text constant.value)]

/-- The constant in a document. -/
def ofDocument (document : Document) : ConstantDecl :=
  ⟨(document.member "name").content, (document.member "value").content⟩

end ConstantDecl

namespace CallbackDecl

/-- The shape of a function pointer type. -/
def shape : Shape :=
  .record "ExportFunctionPointerTypeDef"
    [("return_type", .text), ("name", .text), ("parameters", .list Parameter.shape)]

/-- A function pointer type as a document. -/
def toDocument (callback : CallbackDecl) : Document :=
  .record
    [("return_type", .text callback.returnType), ("name", .text callback.name),
     ("parameters", .list (callback.parameters.map Parameter.toDocument))]

/-- The function pointer type in a document. -/
def ofDocument (document : Document) : CallbackDecl :=
  ⟨(document.member "return_type").content, (document.member "name").content,
   (document.member "parameters").items.map Parameter.ofDocument⟩

end CallbackDecl

namespace Enumerator

/-- The shape of a member of an enumeration. -/
def shape : Shape := .record "ExportEnumValue" [("name", .text), ("value", .text)]

/-- A member of an enumeration as a document. -/
def toDocument (member : Enumerator) : Document :=
  .record [("name", .text member.name), ("value", .text member.value)]

/-- The member of an enumeration in a document. -/
def ofDocument (document : Document) : Enumerator :=
  ⟨(document.member "name").content, (document.member "value").content⟩

end Enumerator

namespace EnumDecl

/-- The shape of an enumeration. -/
def shape : Shape :=
  .record "ExportEnum" [("name", .text), ("values", .list Enumerator.shape)]

/-- An enumeration as a document. -/
def toDocument (declared : EnumDecl) : Document :=
  .record
    [("name", .text declared.name), ("values", .list (declared.values.map Enumerator.toDocument))]

/-- The enumeration in a document. -/
def ofDocument (document : Document) : EnumDecl :=
  ⟨(document.member "name").content,
   (document.member "values").items.map Enumerator.ofDocument⟩

end EnumDecl

namespace EnumAlias

/-- The shape of a type name for an enumeration. -/
def shape : Shape :=
  .record "ExportEnumTypeDef" [("original_type", .text), ("defined_type", .text)]

/-- A type name for an enumeration as a document. -/
def toDocument (named : EnumAlias) : Document :=
  .record [("original_type", .text named.tag), ("defined_type", .text named.typeName)]

/-- The type name for an enumeration in a document. -/
def ofDocument (document : Document) : EnumAlias :=
  ⟨(document.member "original_type").content, (document.member "defined_type").content⟩

end EnumAlias

namespace Field

/-- The shape of a field. -/
def shape : Shape := .record "ExportStructField" [("type", .text), ("name", .text)]

/-- A field as a document. -/
def toDocument (field : Field) : Document :=
  .record [("type", .text field.type), ("name", .text field.name)]

/-- The field in a document. -/
def ofDocument (document : Document) : Field :=
  ⟨(document.member "type").content, (document.member "name").content⟩

end Field

namespace StructDecl

/-- The shape of a struct. -/
def shape : Shape := .record "ExportStruct" [("name", .text), ("fields", .list Field.shape)]

/-- A struct as a document. -/
def toDocument (declared : StructDecl) : Document :=
  .record
    [("name", .text declared.name), ("fields", .list (declared.fields.map Field.toDocument))]

/-- The struct in a document. -/
def ofDocument (document : Document) : StructDecl :=
  ⟨(document.member "name").content, (document.member "fields").items.map Field.ofDocument⟩

end StructDecl

namespace StructAlias

/-- The shape of a type name for a struct. -/
def shape : Shape :=
  .record "ExportStructTypeDef" [("original_type", .text), ("defined_type", .text)]

/-- A type name for a struct as a document. -/
def toDocument (named : StructAlias) : Document :=
  .record [("original_type", .text named.tag), ("defined_type", .text named.typeName)]

/-- The type name for a struct in a document. -/
def ofDocument (document : Document) : StructAlias :=
  ⟨(document.member "original_type").content, (document.member "defined_type").content⟩

end StructAlias

namespace AliasedStruct

/-- The shape of a struct with a type name. -/
def shape : Shape :=
  .record "ExportTypeDefedStruct"
    [("original_type", .text), ("defined_type", .text), ("fields", .list Field.shape)]

/-- A struct with a type name as a document. -/
def toDocument (declared : AliasedStruct) : Document :=
  .record
    [("original_type", .text declared.tag), ("defined_type", .text declared.typeName),
     ("fields", .list (declared.fields.map Field.toDocument))]

/-- The struct with a type name in a document. -/
def ofDocument (document : Document) : AliasedStruct :=
  ⟨(document.member "original_type").content, (document.member "defined_type").content,
   (document.member "fields").items.map Field.ofDocument⟩

end AliasedStruct

namespace Header

/-- The shape of a header. -/
def shape : Shape :=
  .record "ProcessedHeader"
    [("functions", .list FunctionDecl.shape), ("constants", .list ConstantDecl.shape),
     ("function_pointer_typedefs", .list CallbackDecl.shape), ("enums", .list EnumDecl.shape),
     ("enum_typedefs", .list EnumAlias.shape), ("structs", .list StructDecl.shape),
     ("struct_typedefs", .list StructAlias.shape),
     ("typedefed_structs", .list AliasedStruct.shape)]

/-- A header as a document. -/
def toDocument (header : Header) : Document :=
  .record
    [("functions", .list (header.functions.map FunctionDecl.toDocument)),
     ("constants", .list (header.constants.map ConstantDecl.toDocument)),
     ("function_pointer_typedefs", .list (header.callbacks.map CallbackDecl.toDocument)),
     ("enums", .list (header.enums.map EnumDecl.toDocument)),
     ("enum_typedefs", .list (header.enumAliases.map EnumAlias.toDocument)),
     ("structs", .list (header.structs.map StructDecl.toDocument)),
     ("struct_typedefs", .list (header.structAliases.map StructAlias.toDocument)),
     ("typedefed_structs", .list (header.aliasedStructs.map AliasedStruct.toDocument))]

/-- The header in a document. -/
def ofDocument (document : Document) : Header :=
  { functions := (document.member "functions").items.map FunctionDecl.ofDocument
    constants := (document.member "constants").items.map ConstantDecl.ofDocument
    callbacks := (document.member "function_pointer_typedefs").items.map CallbackDecl.ofDocument
    enums := (document.member "enums").items.map EnumDecl.ofDocument
    enumAliases := (document.member "enum_typedefs").items.map EnumAlias.ofDocument
    structs := (document.member "structs").items.map StructDecl.ofDocument
    structAliases := (document.member "struct_typedefs").items.map StructAlias.ofDocument
    aliasedStructs := (document.member "typedefed_structs").items.map AliasedStruct.ofDocument }

/-- A header as JSON text. -/
def toJson (header : Header) : String := header.toDocument.written

/-- Read a header from JSON text. -/
def ofJson (text : String) : Except ReadError Header :=
  (shape.readWhole text.toList).map ofDocument

end Header

end HeaderExports
