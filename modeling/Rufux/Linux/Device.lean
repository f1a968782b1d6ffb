import Rufux.Linux.Mjson
import Rufux.Linux.UdisksMount

/-!
The device list: what sysfs says of each block device, and the JSON text that is printed of it.
A C string in a buffer is kept without its terminator.
-/

namespace Rufux.Linux

open Library

theorem cString_nulFree (bytes : List UInt8) : (0 : UInt8) ∉ bytes.takeWhile (· ≠ 0) := by
  intro inside
  simpa using List.mem_takeWhile_imp inside

/-- What a program sees of a buffer as a C string. -/
def cString (bytes : List UInt8) : Document := ⟨bytes.takeWhile (· ≠ 0), cString_nulFree bytes⟩

/-- `snprintf` of a text into a buffer of so many bytes. -/
def snprintf (cap : Nat) (bytes : List UInt8) : Document := cString (bytes.take (cap - 1))

structure RufuxDevice where
  sysname : Document
  devnode : Document
  vendor : Document
  model : Document
  serial : Document
  transport : Document
  sizeBytes : UInt64
  removable : Bool
  isUsb : Bool
  mounted : Bool

/-- What the system answers: the names under `/sys/block`, the bytes of a file, the target of a
link, the size that a node reports, and the text of `/proc/mounts`. -/
structure Sysfs where
  block : Option (List Document)
  file : Document → Option (List UInt8)
  link : Document → Option (List UInt8)
  nodeSize : Document → Option UInt64
  mounts : Option (List UInt8)

/-- The locale in force: its decimal point and the bytes it can print, no control among them. -/
structure Locale where
  point : Char
  isPrint : UInt8 → Bool
  visible : ∀ byte, isPrint byte = true → 32 ≤ byte

def Locale.pointBytes (locale : Locale) : List UInt8 := String.utf8EncodeChar locale.point

namespace Sysfs

variable (sys : Sysfs)

/-- What `fgets` takes of a text with room for so many bytes and a terminator. -/
def fgetsBytes (most : Nat) (text : List UInt8) : List UInt8 :=
  text.take (min most (text.idxOf 10 + 1))

/-- The first line of a file, without the end of the line. -/
def readFirstLine (path : Document) (cap : Nat) : Option Document :=
  match sys.file path with
  | none => none
  | some [] => none
  | some text => some (cString ((fgetsBytes (cap - 1) text).takeWhile fun char => char ≠ 13 ∧ char ≠ 10))

/-- `read_first_line` into a buffer that holds an empty string before. -/
def firstLineOr (path : Document) (cap : Nat) : Document :=
  (sys.readFirstLine path cap).getD (cString [])

/-- `/sys/block/` with the name and what follows, in a buffer of 256 bytes. -/
def blockPath (name : Document) (rest : String) : Document :=
  snprintf 256 (ascii "/sys/block/" ++ name.bytes ++ ascii rest)

/-- `strtoull` in base ten. -/
def strtoull (text : List UInt8) : UInt64 :=
  let text := text.dropWhile fun char => char = 32 ∨ 9 ≤ char ∧ char ≤ 13
  let digits := if text.head? = some 43 ∨ text.head? = some 45 then text.tail else text
  let value := (digits.takeWhile Json.isDigit).foldl (fun n digit => n * 10 + (digit.toNat - 48)) 0
  if 2 ^ 64 ≤ value then UInt64.ofNat (2 ^ 64 - 1)
  else if text.head? = some 45 then -UInt64.ofNat value
  else UInt64.ofNat value

def devSizeBytes (sysname devnode : Document) : UInt64 :=
  let sectors :=
    match sys.readFirstLine (blockPath sysname "/size") 64 with
    | some line => strtoull line.bytes * 512
    | none => 0
  match sys.nodeSize devnode with
  | some bytes => if 0 < bytes then bytes else sectors
  | none => sectors

/-- What one `fgets` after the other returns of a text. -/
def pieces (most : Nat) : Nat → List UInt8 → List (List UInt8)
  | 0, _ => []
  | _ + 1, [] => []
  | fuel + 1, char :: text =>
      fgetsBytes most (char :: text) ::
        pieces most fuel ((char :: text).drop (fgetsBytes most (char :: text)).length)

def devIsMounted (sysname : Document) : Bool :=
  match sys.mounts with
  | none => false
  | some text =>
    (pieces 1023 text.length text).any
      (snprintf 96 (ascii "/dev/" ++ sysname.bytes)).bytes.isPrefixOf

/-- What `readlink` puts into a buffer of 512 bytes, when it puts anything there. -/
def linkTarget (name : Document) : Option Document :=
  match sys.link (blockPath name "/device") with
  | none => none
  | some [] => none
  | some target => some (snprintf 512 target)

def detectTransport (sysname : Document) (removable : Bool) : List UInt8 :=
  let otherwise := if removable then ascii "usb" else ascii "unknown"
  if (ascii "nvme").isPrefixOf sysname.bytes then ascii "nvme"
  else if (ascii "mmcblk").isPrefixOf sysname.bytes then ascii "mmc"
  else if (ascii "vd").isPrefixOf sysname.bytes then ascii "virt"
  else
    match sys.linkTarget sysname with
    | none => otherwise
    | some target =>
      if ascii "usb" <:+: target.bytes then ascii "usb"
      else if ascii "ata" <:+: target.bytes ∨ ascii "sata" <:+: target.bytes then ascii "sata"
      else otherwise

end Sysfs

def Locale.blank (locale : Locale) (byte : UInt8) : UInt8 := if locale.isPrint byte then byte else 32

theorem Locale.blank_visible (locale : Locale) (byte : UInt8) : 32 ≤ locale.blank byte := by
  unfold Locale.blank
  split
  · rename_i printable
    exact locale.visible byte printable
  · decide

theorem Locale.sanitized_nulFree (locale : Locale) (text : Document) :
    (0 : UInt8) ∉ text.bytes.map locale.blank := by
  intro inside
  obtain ⟨byte, _, same⟩ := List.mem_map.mp inside
  have visible := locale.blank_visible byte
  rw [same] at visible
  exact absurd visible (by decide)

/-- The text with a blank for each byte that cannot be printed. -/
def Locale.sanitized (locale : Locale) (text : Document) : Document :=
  ⟨text.bytes.map locale.blank, locale.sanitized_nulFree text⟩

def skippedName (name : Document) : Bool :=
  name.bytes.head? = some 46 || (ascii "loop").isPrefixOf name.bytes ||
    (ascii "ram").isPrefixOf name.bytes || (ascii "dm-").isPrefixOf name.bytes ||
      (ascii "zram").isPrefixOf name.bytes

/-- The device under one name, unless it is left out. -/
def listDevice (locale : Locale) (sys : Sysfs) (includeFixed : Bool) (name : Document) :
    Option RufuxDevice :=
  if skippedName name then none
  else
    match sys.readFirstLine (Sysfs.blockPath name "/removable") 128 with
    | none => none
    | some line =>
      let removable := line.bytes.head? = some 49
      if !removable && !includeFixed then none
      else
        let sysname := snprintf 64 name.bytes
        let devnode := snprintf 128 (ascii "/dev/" ++ name.bytes)
        let vendor := sys.firstLineOr (Sysfs.blockPath name "/device/vendor") 128
        let model := sys.firstLineOr (Sysfs.blockPath name "/device/model") 128
        let serial :=
          match sys.readFirstLine (Sysfs.blockPath name "/device/serial") 128 with
          | some serial => serial
          | none => sys.firstLineOr (Sysfs.blockPath name "/serial") 128
        let isUsb :=
          match sys.linkTarget name with
          | some target => decide (ascii "usb" <:+: target.bytes)
          | none => false
        let size := sys.devSizeBytes sysname devnode
        -- an empty card reader slot shows up with no capacity
        if size = 0 then none
        else some {
          sysname, devnode, serial, removable, isUsb
          vendor := locale.sanitized vendor
          model := locale.sanitized model
          transport := snprintf 32 (sys.detectTransport name removable)
          sizeBytes := size
          mounted := sys.devIsMounted name }

/-- `rufux_list_devices` into room for `max` devices. The rest of the names is not looked at once
the room is taken. -/
def rufuxListDevices (locale : Locale) (sys : Sysfs) (max : Nat) (includeFixed : Bool) :
    Option (List RufuxDevice) :=
  sys.block.map fun names => (names.filterMap (listDevice locale sys includeFixed)).take max

/-! ### The JSON text -/

def jsonEscape : List UInt8 → List UInt8
  | [] => []
  | char :: rest =>
      if char = 34 ∨ char = 92 then 92 :: char :: jsonEscape rest else char :: jsonEscape rest

/-- `%llu` -/
def printNumber (value : UInt64) : List UInt8 :=
  (Nat.toDigits 10 value.toNat).map fun char => UInt8.ofNat char.toNat

def printBool (value : Bool) : List UInt8 := if value then ascii "true" else ascii "false"

/-- The device as an object, without the comma and the newline after it. -/
def printDevice (dev : RufuxDevice) : List UInt8 :=
  ascii "  \x7b\"node\":\"" ++ dev.devnode.bytes ++ ascii "\",\"sys\":\"" ++ dev.sysname.bytes ++
    ascii "\",\"size_bytes\":" ++ printNumber dev.sizeBytes ++ ascii ",\"removable\":" ++
    printBool dev.removable ++ ascii ",\"usb\":" ++ printBool dev.isUsb ++ ascii ",\"mounted\":" ++
    printBool dev.mounted ++ ascii ",\"transport\":\"" ++ dev.transport.bytes ++
    ascii "\",\"vendor\":\"" ++ jsonEscape dev.vendor.bytes ++ ascii "\",\"model\":\"" ++
    jsonEscape dev.model.bytes ++ ascii "\",\"serial\":\"" ++ jsonEscape dev.serial.bytes ++
    ascii "\"\x7d"

def printEach : List RufuxDevice → List UInt8
  | [] => []
  | dev :: rest =>
      printDevice dev ++ (if rest.isEmpty then [] else ascii ",") ++ ascii "\n" ++ printEach rest

def rufuxPrintDevicesJson (devs : List RufuxDevice) : List UInt8 :=
  ascii "[\n" ++ printEach devs ++ ascii "]\n"

/-! ### What the reader's accessors return -/

def mjGet (tree : Json) (key : String) : Option Json :=
  match tree with
  | .node true members => (members.find? fun member => member.1 = ascii key).map Prod.snd
  | _ => none

def mjStr : Option Json → Option (List UInt8)
  | some (.str text) => some text
  | _ => none

def mjBool : Option Json → Bool
  | some (.bool value) => value
  | _ => false

/-- The double nearest to a natural number, the even one of two. -/
def nearestDouble (value : Nat) : Nat :=
  let unit := 2 ^ (value.log2 - 52)
  let low := value / unit
  if unit < 2 * (value % unit) ∨ 2 * (value % unit) = unit ∧ low % 2 = 1 then (low + 1) * unit
  else low * unit

/-- The double that `strtod` makes of a token of digits. -/
def mjNum : Option Json → Option Nat
  | some (.num token) =>
      if token.all Json.isDigit then
        some (nearestDouble (token.foldl (fun n digit => n * 10 + (digit.toNat - 48)) 0))
      else none
  | _ => none

end Rufux.Linux
