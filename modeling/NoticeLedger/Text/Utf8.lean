import NoticeLedger.Text

/-!
# Bytes as text

Texts are kept in files and byte values as UTF-8. Not every sequence of bytes is the form of a
string, and a text with a surrogate has no form.
-/

namespace NoticeLedger

/-- The string whose UTF-8 form the bytes are. -/
def decodeUtf8? (bs : List UInt8) : Option String :=
  String.fromUTF8? (ByteArray.mk bs.toArray)

/-- The UTF-8 form of a string. -/
def encodeUtf8 (s : String) : List UInt8 :=
  s.toUTF8.data.toList

namespace Text

/-- The UTF-8 form of a text. -/
def encode? (t : Text) : Option (List UInt8) :=
  t.toString?.map encodeUtf8

end Text

end NoticeLedger
