import HeaderExports.Json.Header
import HeaderExports.Proofs.Json.Rendering

/-!
# Headers survive JSON

Every declaration is a document of its own shape, and the declaration of that
document is the one it was written from. A header therefore comes back from
its JSON text, whatever its leaves hold and however long its lists are.
-/

namespace HeaderExports

open Json (Document)

/-- A list whose items come back comes back. -/
theorem map_ofDocument_map_toDocument {α : Type} {toDocument : α → Document}
    {ofDocument : Document → α} (hc : ∀ value, ofDocument (toDocument value) = value)
    (values : List α) : (values.map toDocument).map ofDocument = values := by
  rw [List.map_map]
  exact List.map_id'' hc values

namespace Parameter

/-- A parameter is a document of its shape. -/
theorem fits_toDocument (parameter : Parameter) : shape.Fits parameter.toDocument :=
  .record rfl (by simp) (.cons (.text _) (.cons (.text _) (.nil _)))

/-- A parameter comes back from its document. -/
theorem ofDocument_toDocument (parameter : Parameter) :
    ofDocument parameter.toDocument = parameter := rfl

end Parameter

namespace FunctionDecl

/-- A function is a document of its shape. -/
theorem fits_toDocument (function : FunctionDecl) : shape.Fits function.toDocument :=
  .record rfl (by simp)
    (.cons (.text _) (.cons (.text _) (.cons (.map Parameter.fits_toDocument _) (.nil _))))

/-- A function comes back from its document. -/
theorem ofDocument_toDocument (function : FunctionDecl) :
    ofDocument function.toDocument = function := by
  have hitems := map_ofDocument_map_toDocument Parameter.ofDocument_toDocument function.parameters
  exact congrArg (fun items => { function with parameters := items }) hitems

end FunctionDecl

namespace ConstantDecl

/-- A constant is a document of its shape. -/
theorem fits_toDocument (constant : ConstantDecl) : shape.Fits constant.toDocument :=
  .record rfl (by simp) (.cons (.text _) (.cons (.text _) (.nil _)))

/-- A constant comes back from its document. -/
theorem ofDocument_toDocument (constant : ConstantDecl) :
    ofDocument constant.toDocument = constant := rfl

end ConstantDecl

namespace CallbackDecl

/-- A function pointer type is a document of its shape. -/
theorem fits_toDocument (callback : CallbackDecl) : shape.Fits callback.toDocument :=
  .record rfl (by simp)
    (.cons (.text _) (.cons (.text _) (.cons (.map Parameter.fits_toDocument _) (.nil _))))

/-- A function pointer type comes back from its document. -/
theorem ofDocument_toDocument (callback : CallbackDecl) :
    ofDocument callback.toDocument = callback := by
  have hitems := map_ofDocument_map_toDocument Parameter.ofDocument_toDocument callback.parameters
  exact congrArg (fun items => { callback with parameters := items }) hitems

end CallbackDecl

namespace Enumerator

/-- A member of an enumeration is a document of its shape. -/
theorem fits_toDocument (member : Enumerator) : shape.Fits member.toDocument :=
  .record rfl (by simp) (.cons (.text _) (.cons (.text _) (.nil _)))

/-- A member of an enumeration comes back from its document. -/
theorem ofDocument_toDocument (member : Enumerator) : ofDocument member.toDocument = member := rfl

end Enumerator

namespace EnumDecl

/-- An enumeration is a document of its shape. -/
theorem fits_toDocument (declared : EnumDecl) : shape.Fits declared.toDocument :=
  .record rfl (by simp) (.cons (.text _) (.cons (.map Enumerator.fits_toDocument _) (.nil _)))

/-- An enumeration comes back from its document. -/
theorem ofDocument_toDocument (declared : EnumDecl) :
    ofDocument declared.toDocument = declared := by
  have hitems := map_ofDocument_map_toDocument Enumerator.ofDocument_toDocument declared.values
  exact congrArg (fun items => { declared with values := items }) hitems

end EnumDecl

namespace EnumAlias

/-- A type name for an enumeration is a document of its shape. -/
theorem fits_toDocument (named : EnumAlias) : shape.Fits named.toDocument :=
  .record rfl (by simp) (.cons (.text _) (.cons (.text _) (.nil _)))

/-- A type name for an enumeration comes back from its document. -/
theorem ofDocument_toDocument (named : EnumAlias) : ofDocument named.toDocument = named := rfl

end EnumAlias

namespace Field

/-- A field is a document of its shape. -/
theorem fits_toDocument (field : Field) : shape.Fits field.toDocument :=
  .record rfl (by simp) (.cons (.text _) (.cons (.text _) (.nil _)))

/-- A field comes back from its document. -/
theorem ofDocument_toDocument (field : Field) : ofDocument field.toDocument = field := rfl

end Field

namespace StructDecl

/-- A struct is a document of its shape. -/
theorem fits_toDocument (declared : StructDecl) : shape.Fits declared.toDocument :=
  .record rfl (by simp) (.cons (.text _) (.cons (.map Field.fits_toDocument _) (.nil _)))

/-- A struct comes back from its document. -/
theorem ofDocument_toDocument (declared : StructDecl) :
    ofDocument declared.toDocument = declared := by
  have hitems := map_ofDocument_map_toDocument Field.ofDocument_toDocument declared.fields
  exact congrArg (fun items => { declared with fields := items }) hitems

end StructDecl

namespace StructAlias

/-- A type name for a struct is a document of its shape. -/
theorem fits_toDocument (named : StructAlias) : shape.Fits named.toDocument :=
  .record rfl (by simp) (.cons (.text _) (.cons (.text _) (.nil _)))

/-- A type name for a struct comes back from its document. -/
theorem ofDocument_toDocument (named : StructAlias) : ofDocument named.toDocument = named := rfl

end StructAlias

namespace AliasedStruct

/-- A struct with a type name is a document of its shape. -/
theorem fits_toDocument (declared : AliasedStruct) : shape.Fits declared.toDocument :=
  .record rfl (by simp)
    (.cons (.text _) (.cons (.text _) (.cons (.map Field.fits_toDocument _) (.nil _))))

/-- A struct with a type name comes back from its document. -/
theorem ofDocument_toDocument (declared : AliasedStruct) :
    ofDocument declared.toDocument = declared := by
  have hitems := map_ofDocument_map_toDocument Field.ofDocument_toDocument declared.fields
  exact congrArg (fun items => { declared with fields := items }) hitems

end AliasedStruct

namespace Header

attribute [ext] Header

/-- A header is a document of its shape. -/
theorem fits_toDocument (header : Header) : shape.Fits header.toDocument :=
  .record rfl (by simp)
    (.cons (.map FunctionDecl.fits_toDocument _) (.cons (.map ConstantDecl.fits_toDocument _)
      (.cons (.map CallbackDecl.fits_toDocument _) (.cons (.map EnumDecl.fits_toDocument _)
        (.cons (.map EnumAlias.fits_toDocument _) (.cons (.map StructDecl.fits_toDocument _)
          (.cons (.map StructAlias.fits_toDocument _)
            (.cons (.map AliasedStruct.fits_toDocument _) (.nil _)))))))))

/-- A header comes back from its document. -/
theorem ofDocument_toDocument (header : Header) : ofDocument header.toDocument = header := by
  have hf := map_ofDocument_map_toDocument FunctionDecl.ofDocument_toDocument header.functions
  have hc := map_ofDocument_map_toDocument ConstantDecl.ofDocument_toDocument header.constants
  have hb := map_ofDocument_map_toDocument CallbackDecl.ofDocument_toDocument header.callbacks
  have he := map_ofDocument_map_toDocument EnumDecl.ofDocument_toDocument header.enums
  have hn := map_ofDocument_map_toDocument EnumAlias.ofDocument_toDocument header.enumAliases
  have hs := map_ofDocument_map_toDocument StructDecl.ofDocument_toDocument header.structs
  have ha := map_ofDocument_map_toDocument StructAlias.ofDocument_toDocument header.structAliases
  have hd := map_ofDocument_map_toDocument AliasedStruct.ofDocument_toDocument
    header.aliasedStructs
  exact Header.ext hf hc hb he hn hs ha hd

/-- A header is read back from its JSON text. -/
theorem ofJson_toJson (header : Header) : ofJson header.toJson = .ok header := by
  have hread := (fits_toDocument header).readWhole_written
  rw [ofJson, toJson, hread]
  exact congrArg Except.ok (ofDocument_toDocument header)

/-- Every header is read back from its JSON text, and headers that differ are
written as different texts. -/
theorem json_roundTrip (header other : Header) :
    ofJson header.toJson = .ok header ∧ (header.toJson = other.toJson ↔ header = other) := by
  refine ⟨ofJson_toJson header, fun he => ?_, congrArg toJson⟩
  have hread := ofJson_toJson header
  rw [he, ofJson_toJson other] at hread
  exact (Except.ok.inj hread).symm

end Header

end HeaderExports
