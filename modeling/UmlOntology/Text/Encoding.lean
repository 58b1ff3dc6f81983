/-
The encodings that a document can declare, the labels that name them, and the text that bytes stand
for in each. Reading is strict: bytes that are no text in the encoding give no text at all.

The tables of the East Asian character sets are no part of this library. Whoever reads text in them
brings the decoders along, and whatever is proved about reading holds for any decoders.
-/
import UmlOntology.Text.CodePage
import UmlOntology.Text.Iso2022Jp
import UmlOntology.Text.Utf16

namespace UmlOntology

/-- An encoding of East Asian text in which ASCII bytes stand for themselves. -/
inductive DoubleByte where
  | big5
  | eucJp
  | eucKr
  | gb18030
  | gbk
  | shiftJis
deriving DecidableEq, Repr

/-- An encoding of text. -/
inductive Encoding where
  | utf8
  | utf16 (order : Utf16.Order)
  | page (page : CodePage)
  | doubleByte (kind : DoubleByte)
  | iso2022Jp
  /-- ASCII, and each byte from 128 on as the private character U+F700 beyond it. -/
  | userDefined
  /-- The encoding of labels that are refused: nothing but the empty text is readable in it. -/
  | replacement
deriving DecidableEq, Repr

/-- The name under which a double-byte encoding is registered. -/
def DoubleByte.name : DoubleByte → String
  | .big5 => "Big5"
  | .eucJp => "EUC-JP"
  | .eucKr => "EUC-KR"
  | .gb18030 => "gb18030"
  | .gbk => "GBK"
  | .shiftJis => "Shift_JIS"

/-! ## Decoders from outside -/

/-- The decoders that reading takes from outside. -/
structure Decoders where
  /-- The text that the bytes stand for in a double-byte encoding. -/
  doubleByte : DoubleByte → Bytes → Option String
  /-- The character of ISO-2022-JP that two bytes from 0x21 to 0x7e stand for. -/
  kanji : UInt8 → UInt8 → Option Char

/-- The text of bytes that are characters of ASCII. -/
def Bytes.ascii? (s : Bytes) : Option String :=
  if s.all (· < 0x80) then some (String.ofList (s.map fun b => Char.ofNat b.toNat)) else none

/-- The decoders that know ASCII and no more. -/
def Decoders.ascii : Decoders where
  doubleByte _ := Bytes.ascii?
  kanji _ _ := none

namespace Encoding

/-- The name under which an encoding is registered. -/
def name : Encoding → String
  | .utf8 => "UTF-8"
  | .utf16 .bigEndian => "UTF-16BE"
  | .utf16 .littleEndian => "UTF-16LE"
  | .page p => p.name
  | .doubleByte d => d.name
  | .iso2022Jp => "ISO-2022-JP"
  | .userDefined => "x-user-defined"
  | .replacement => "replacement"

/-! ## Labels -/

/-- Every encoding with its labels, in small letters. -/
def labels : List (Encoding × List String) := [
    (.utf8, ["unicode-1-1-utf-8", "unicode11utf8", "unicode20utf8", "utf8", "utf-8",
      "x-unicode20utf8"]),
    (.page .ibm866, ["866", "cp866", "csibm866", "ibm866"]),
    (.page .iso8859p2, ["csisolatin2", "iso-8859-2", "iso-ir-101", "iso8859-2", "iso88592",
      "iso_8859-2", "iso_8859-2:1987", "l2", "latin2"]),
    (.page .iso8859p3, ["csisolatin3", "iso-8859-3", "iso-ir-109", "iso8859-3", "iso88593",
      "iso_8859-3", "iso_8859-3:1988", "l3", "latin3"]),
    (.page .iso8859p4, ["csisolatin4", "iso-8859-4", "iso-ir-110", "iso8859-4", "iso88594",
      "iso_8859-4", "iso_8859-4:1988", "l4", "latin4"]),
    (.page .iso8859p5, ["csisolatincyrillic", "cyrillic", "iso-8859-5", "iso-ir-144",
      "iso8859-5", "iso88595", "iso_8859-5", "iso_8859-5:1988"]),
    (.page .iso8859p6, ["arabic", "asmo-708", "csiso88596e", "csiso88596i", "csisolatinarabic",
      "ecma-114", "iso-8859-6", "iso-8859-6-e", "iso-8859-6-i", "iso-ir-127", "iso8859-6",
      "iso88596", "iso_8859-6", "iso_8859-6:1987"]),
    (.page .iso8859p7, ["csisolatingreek", "ecma-118", "elot_928", "greek", "greek8",
      "iso-8859-7", "iso-ir-126", "iso8859-7", "iso88597", "iso_8859-7", "iso_8859-7:1987",
      "sun_eu_greek"]),
    (.page .iso8859p8, ["csiso88598e", "csisolatinhebrew", "hebrew", "iso-8859-8",
      "iso-8859-8-e", "iso-ir-138", "iso8859-8", "iso88598", "iso_8859-8", "iso_8859-8:1988",
      "visual"]),
    (.page .iso8859p8i, ["csiso88598i", "iso-8859-8-i", "logical"]),
    (.page .iso8859p10, ["csisolatin6", "iso-8859-10", "iso-ir-157", "iso8859-10", "iso885910",
      "l6", "latin6"]),
    (.page .iso8859p13, ["iso-8859-13", "iso8859-13", "iso885913"]),
    (.page .iso8859p14, ["iso-8859-14", "iso8859-14", "iso885914"]),
    (.page .iso8859p15, ["csisolatin9", "iso-8859-15", "iso8859-15", "iso885915", "iso_8859-15",
      "l9"]),
    (.page .iso8859p16, ["iso-8859-16"]),
    (.page .koi8r, ["cskoi8r", "koi", "koi8", "koi8-r", "koi8_r"]),
    (.page .koi8u, ["koi8-ru", "koi8-u"]),
    (.page .macintosh, ["csmacintosh", "mac", "macintosh", "x-mac-roman"]),
    (.page .windows874, ["dos-874", "iso-8859-11", "iso8859-11", "iso885911", "tis-620",
      "windows-874"]),
    (.page .windows1250, ["cp1250", "windows-1250", "x-cp1250"]),
    (.page .windows1251, ["cp1251", "windows-1251", "x-cp1251"]),
    (.page .windows1252, ["ansi_x3.4-1968", "ascii", "cp1252", "cp819", "csisolatin1", "ibm819",
      "iso-8859-1", "iso-ir-100", "iso8859-1", "iso88591", "iso_8859-1", "iso_8859-1:1987", "l1",
      "latin1", "us-ascii", "windows-1252", "x-cp1252"]),
    (.page .windows1253, ["cp1253", "windows-1253", "x-cp1253"]),
    (.page .windows1254, ["cp1254", "csisolatin5", "iso-8859-9", "iso-ir-148", "iso8859-9",
      "iso88599", "iso_8859-9", "iso_8859-9:1989", "l5", "latin5", "windows-1254", "x-cp1254"]),
    (.page .windows1255, ["cp1255", "windows-1255", "x-cp1255"]),
    (.page .windows1256, ["cp1256", "windows-1256", "x-cp1256"]),
    (.page .windows1257, ["cp1257", "windows-1257", "x-cp1257"]),
    (.page .windows1258, ["cp1258", "windows-1258", "x-cp1258"]),
    (.page .macCyrillic, ["x-mac-cyrillic", "x-mac-ukrainian"]),
    (.doubleByte .gbk, ["chinese", "csgb2312", "csiso58gb231280", "gb2312", "gb_2312",
      "gb_2312-80", "gbk", "iso-ir-58", "x-gbk"]),
    (.doubleByte .gb18030, ["gb18030"]),
    (.doubleByte .big5, ["big5", "big5-hkscs", "cn-big5", "csbig5", "x-x-big5"]),
    (.doubleByte .eucJp, ["cseucpkdfmtjapanese", "euc-jp", "x-euc-jp"]),
    (.iso2022Jp, ["csiso2022jp", "iso-2022-jp"]),
    (.doubleByte .shiftJis, ["csshiftjis", "ms932", "ms_kanji", "shift-jis", "shift_jis", "sjis",
      "windows-31j", "x-sjis"]),
    (.doubleByte .eucKr, ["cseuckr", "csksc56011987", "euc-kr", "iso-ir-149", "korean",
      "ks_c_5601-1987", "ks_c_5601-1989", "ksc5601", "ksc_5601", "windows-949"]),
    (.replacement, ["csiso2022kr", "hz-gb-2312", "iso-2022-cn", "iso-2022-cn-ext", "iso-2022-kr",
      "replacement"]),
    (.utf16 .bigEndian, ["unicodefffe", "utf-16be"]),
    (.utf16 .littleEndian, ["csunicode", "iso-10646-ucs-2", "ucs-2", "unicode", "unicodefeff",
      "utf-16le", "utf-16"]),
    (.userDefined, ["x-user-defined"])]

/-- White space around a label: that of markup and the form feed. -/
def isLabelBlank (b : UInt8) : Bool := Bytes.isBlank b || b == 0x0c

/-- A label in small letters and without the white space around it. -/
def normalLabel (label : Bytes) : Bytes :=
  (((label.dropWhile isLabelBlank).reverse.dropWhile isLabelBlank).reverse).map Bytes.toLower

/-- The encoding that a label names. -/
def ofLabel? (label : Bytes) : Option Encoding :=
  (labels.find? fun row => row.2.any fun l => Bytes.ofString l == normalLabel label).map (·.1)

/-! ## Reading -/

/-- The text that the bytes stand for, if they are text in this encoding. -/
def decode? (decoders : Decoders) : Encoding → Bytes → Option String
  | .utf8, s => String.fromUTF8? (ByteArray.mk s.toArray)
  | .utf16 o, s => Utf16.decode? o s
  | .page p, s => p.decode? s
  | .doubleByte d, s => decoders.doubleByte d s
  | .iso2022Jp, s => Iso2022Jp.decode? decoders.kanji s
  | .userDefined, s =>
    some (String.ofList (s.map fun b =>
      Char.ofNat (if b < 0x80 then b.toNat else 0xf700 + b.toNat)))
  | .replacement, s => if s = [] then some "" else none

/-! ## Detection -/

/-- The encoding that the first bytes of a document show, and how many of them are a byte order
mark. A document without a mark shows its encoding by a declaration of two bytes a character, and
is taken for UTF-8 otherwise. -/
def detect : Bytes → Encoding × Nat
  | 0xef :: 0xbb :: 0xbf :: _ => (.utf8, 3)
  | 0xfe :: 0xff :: _ => (.utf16 .bigEndian, 2)
  | 0xff :: 0xfe :: _ => (.utf16 .littleEndian, 2)
  | 0x00 :: 0x3c :: 0x00 :: 0x3f :: _ => (.utf16 .bigEndian, 0)
  | 0x3c :: 0x00 :: 0x3f :: 0x00 :: _ => (.utf16 .littleEndian, 0)
  | _ => (.utf8, 0)

end Encoding

end UmlOntology
