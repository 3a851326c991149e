import ManagedCode.Size
import ManagedCode.Text.Numeral

/-!
# Settings

    What can be tuned about installations: the byte order of the target, the reserves of a blob,
    and the range code goes to. A setting is changed by its key and a text.

* **`Settings.assign?`** reads the text and changes the one field of the key.
* **`Settings.set`** does so and then checks the settings as a whole. A value that reads well but
  fails the check is reported, and stays.
-/

namespace ManagedCode

/-- Which half of a two-word value comes first. -/
inductive ByteOrder where
  | little
  | big
deriving DecidableEq, Repr, Inhabited

/-- The name of a byte order. -/
def ByteOrder.text : ByteOrder → String
  | little => "little"
  | big => "big"

/-- The settings of an installer. -/
structure Settings where
  byteOrder : ByteOrder := .little
  constantsAlignment : Nat := 16
  constantBytesPerSite : Nat := 16
  relocationsPerSite : Nat := 2
  pollOffset : Nat := 0
  codeBase : UInt64 := 0x7f000000
  codeCapacity : Nat := 48 * 1024 * 1024
deriving DecidableEq, Repr, Inhabited

/-- Why a setting is refused. -/
inductive SettingsError where
  | unknownKey (key : String)
  | invalidValue (key value : String)
deriving DecidableEq, Repr, Inhabited

/-- The wording of a refused setting. -/
def SettingsError.message : SettingsError → String
  | unknownKey key => s!"unknown config key `{key}`"
  | invalidValue key value => s!"invalid value `{value}` for config key `{key}`"

namespace Settings

/-- The byte order with the given name. -/
def readByteOrder? (value : String) : Option ByteOrder :=
  [ByteOrder.little, ByteOrder.big].find? fun order => order.text == value

/-- A decimal number. -/
def readSize? (value : String) : Option Nat := Text.numeral? 10 value.toList

/-- An address: hexadecimal behind `0x`, decimal otherwise. -/
def readAddress? (value : String) : Option UInt64 :=
  (match value.toList with
    | '0' :: 'x' :: rest => Text.numeral? 16 rest
    | cs => Text.numeral? 10 cs).map UInt64.ofNat

/-- The settings with the field of `key` set to what `value` says; the outer option is none for an
    unknown key, the inner one for a value that cannot be read. -/
def assign? (s : Settings) (key value : String) : Option (Option Settings) :=
  match key with
  | "byte_order" =>
      some ((readByteOrder? value).map fun v => { s with byteOrder := v })
  | "constants_alignment" =>
      some ((readSize? value).map fun v => { s with constantsAlignment := v })
  | "constant_bytes_per_site" =>
      some ((readSize? value).map fun v => { s with constantBytesPerSite := v })
  | "relocations_per_site" =>
      some ((readSize? value).map fun v => { s with relocationsPerSite := v })
  | "safepoint_poll_offset" =>
      some ((readSize? value).map fun v => { s with pollOffset := v })
  | "code_cache_base" =>
      some ((readAddress? value).map fun v => { s with codeBase := v })
  | "code_cache_capacity" =>
      some ((readSize? value).map fun v => { s with codeCapacity := v })
  | _ => none

/-- Changes one setting. The alignment of constants has to be a power of two afterwards. -/
def set (s : Settings) (key value : String) : Except SettingsError Unit × Settings :=
  match s.assign? key value with
  | none => (.error (.unknownKey key), s)
  | some none => (.error (.invalidValue key value), s)
  | some (some changed) =>
      if Size.isPowerOfTwo changed.constantsAlignment then (.ok (), changed)
      else (.error (.invalidValue key value), changed)

/-- Changes settings in order, up to the first that is refused. -/
def override (s : Settings) : List (String × String) → Except SettingsError Settings
  | [] => .ok s
  | (key, value) :: rest =>
      match s.set key value with
      | (.ok (), changed) => changed.override rest
      | (.error e, _) => .error e

end Settings

end ManagedCode
