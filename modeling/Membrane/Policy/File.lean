import Membrane.Policy
import Membrane.Toml.Decoding

/-!
# Configuration files

A configuration is the table `bridge` of a document, with the entries `tag`, `access` and
`id_order`. What is not set keeps its default, and other entries of the document are not looked at;
inside the table every other entry is refused. Both structures are declared here, for any decoder of
documents.
-/

namespace Membrane

/-- Why a file gives nothing: it cannot be read, or what it holds cannot be decoded. -/
inductive FileError (Fault : Type) where
  /-- There is no such file. -/
  | missing
  /-- The file holds bytes that are no text. -/
  | notText
  /-- The document has a fault. -/
  | document (fault : Fault)
deriving DecidableEq, Repr

namespace ConfigFile

section Declarations

variable (D : Decoder)

/-- The field `tag`, a text. -/
def tag : Field D.Value D.Fault Config where
  name := "tag"
  decode := D.text
  get := Config.tag
  put tag config := { config with tag }
  get_put _ _ := rfl

/-- The field `access`, a choice. -/
def access : Field D.Value D.Fault Config where
  name := "access"
  decode := D.choice AccessChoice.all AccessChoice.name
  get := Config.access
  put access config := { config with access }
  get_put _ _ := rfl

/-- The field `id_order`, a choice. -/
def idOrder : Field D.Value D.Fault Config where
  name := "id_order"
  decode := D.choice IdOrder.all IdOrder.name
  get := Config.idOrder
  put idOrder config := { config with idOrder }
  get_put _ _ := rfl

/-- A configuration: a field without an entry has its default, and other entries are refused. -/
def config : Declaration D.Value D.Fault Config where
  name := "BridgeConfig"
  fields := [tag D, access D, idOrder D]
  base := {}
  closed := true
  nodup := by simp [tag, access, idOrder]
  apart := by
    have htag : (tag D).Apart (access D) ∧ (tag D).Apart (idOrder D) :=
      ⟨⟨fun _ _ => rfl, fun _ _ => rfl⟩, fun _ _ => rfl, fun _ _ => rfl⟩
    have haccess : (access D).Apart (idOrder D) := ⟨fun _ _ => rfl, fun _ _ => rfl⟩
    simp [htag, haccess]
  complete s s' h := by
    have htag := h (tag D) (by simp)
    have haccess := h (access D) (by simp)
    have hidOrder := h (idOrder D) (by simp)
    cases s
    cases s'
    exact congr (congr (congrArg Config.mk htag) haccess) hidOrder

/-- What is taken from a document. -/
structure Sections where
  bridge : Config := {}

/-- The field `bridge`, a configuration. -/
def bridge : Field D.Value D.Fault Sections where
  name := "bridge"
  decode := D.record (config D)
  get := Sections.bridge
  put bridge sections := { sections with bridge }
  get_put _ _ := rfl

/-- A document: without the entry `bridge` it stands for the default configuration, and other entries
are not looked at. -/
def sections : Declaration D.Value D.Fault Sections where
  name := "ConfigFile"
  fields := [bridge D]
  base := {}
  closed := false
  nodup := by simp
  apart := by simp
  complete _ _ h := congrArg Sections.mk (h (bridge D) (by simp))

/-- The configuration of a document. -/
def parseBy (document : String) : Except (FileError D.Fault) Config :=
  match D.decode (sections D) document with
  | .ok file => .ok file.bridge
  | .error fault => .error (.document fault)

/-- The configuration of a file, given its bytes if there is one. -/
def loadBy (bytes : Option ByteArray) : Except (FileError D.Fault) Config :=
  match bytes with
  | none => .error .missing
  | some bytes => match String.fromUTF8? bytes with
    | none => .error .notText
    | some document => parseBy D document

end Declarations

end ConfigFile

/-! ## With the decoder at hand -/

/-- Why a configuration cannot be had. -/
abbrev ConfigError := FileError Toml.Fault

/-- The wording of an error, for those that name what they found. -/
def ConfigError.message? : ConfigError → Option String
  | .missing | .notText => none
  | .document fault => fault.message?

namespace ConfigFile

/-- The configuration of a document. -/
def parse (document : String) : Except ConfigError Config := parseBy Toml.decoder document

/-- The configuration of a file, given its bytes if there is one. -/
def load (bytes : Option ByteArray) : Except ConfigError Config := loadBy Toml.decoder bytes

end ConfigFile

end Membrane
