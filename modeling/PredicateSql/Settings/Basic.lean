/-!
The settings of a process: logging, the dialect that is used when a query names none, and what the
field cipher falls back on.
-/
namespace PredicateSql

structure CipherSettings where
  defaultKey : String
  /-- Key size in bits. -/
  keySize : UInt16
deriving DecidableEq, Repr

structure Settings where
  debug : Bool
  logLevel : String
  defaultDialect : String
  cipher : CipherSettings
deriving DecidableEq, Repr

namespace Settings

def default : Settings :=
  ⟨true, "info", "mssql", ⟨"", 128⟩⟩

end Settings

inductive SettingsMisuse where
  | alreadyConfigured | notConfigured
deriving DecidableEq, Repr

/-- Settings that are set once; `none` before that. -/
structure SettingsCell where
  settings? : Option Settings
deriving DecidableEq, Repr

namespace SettingsCell

def empty : SettingsCell := ⟨none⟩

def isConfigured (cell : SettingsCell) : Bool :=
  cell.settings?.isSome

/-- Sets the settings; a second time is a misuse. -/
def configure (cell : SettingsCell) (settings : Settings) : Except SettingsMisuse SettingsCell :=
  match cell.settings? with
  | some _ => .error .alreadyConfigured
  | none => .ok ⟨some settings⟩

/-- The settings; asking before they are set is a misuse. -/
def get (cell : SettingsCell) : Except SettingsMisuse Settings :=
  match cell.settings? with
  | some settings => .ok settings
  | none => .error .notConfigured

end SettingsCell
end PredicateSql
