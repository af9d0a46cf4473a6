import ParamQuery.Parameters
import ParamQuery.Text.Numeral
import ParamQuery.Text.Split
import ParamQuery.Text.Utf8

/-!
# Query strings

The format `application/x-www-form-urlencoded`: pieces between `&`, each a key and a text
around the first `=`. In both, `+` is a space, `%` with two hexadecimal digits is a byte, and
the bytes together are UTF-8. Malformed escapes stand for themselves, so every text is read.
-/

namespace ParamQuery

namespace FormUrlencoded

/-- The bytes that a key or text denotes. -/
def bytes : List Char → List UInt8
  | [] => []
  | '+' :: rest => 0x20 :: bytes rest
  | '%' :: high :: low :: rest =>
    match Numeral.hexValue? high, Numeral.hexValue? low with
    | some h, some l => UInt8.ofNat (16 * h + l) :: bytes rest
    | _, _ => 0x25 :: bytes (high :: low :: rest)
  | c :: rest => String.utf8EncodeChar c ++ bytes rest

def decode (text : List Char) : String := String.ofList (Utf8.decode (bytes text))

/-- A piece without `=` is a key with the empty text. -/
def pair (piece : List Char) : String × String :=
  match Text.cut '=' piece with
  | some (key, text) => (decode key, decode text)
  | none => (decode piece, "")

def pairs (text : List Char) : List (String × String) :=
  ((Text.pieces '&' text).filter fun piece => !piece.isEmpty).map pair

def dropMark : List Char → List Char
  | '?' :: rest => rest
  | text => text

end FormUrlencoded

def Parameters.ofQueryString (query : String) : Parameters :=
  Parameters.ofPairs (FormUrlencoded.pairs (FormUrlencoded.dropMark query.toList))

end ParamQuery
