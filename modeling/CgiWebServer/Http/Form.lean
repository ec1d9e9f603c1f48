/-
Form data (http.cpp): `url_decode` and `parse_url_form`.

The decoder takes a `%` with two hex digits behind it for the byte they
spell, a `+` for a space, and leaves everything else as it is, a `%`
without its digits too. Its index is an `int`; the bodies it is for are
cut at `BUFSIZ`, far below where that would end. `parse_url_form` reads the text up to each `&`
and cuts it at its first `=`; the JSON object it fills is a map of
strings.
-/
import CgiWebServer.Http.Extract

namespace CgiWebServer

open Scan (find)

/-- The value of a hex digit. -/
def hexValue (b : Byte) : Nat :=
  if isDigit b then b.toNat - 48
  else if isUpper b then b.toNat - 55
  else b.toNat - 87

/-- `std::strtol` of two hex digits, as a `char`. -/
def hexByte (high low : Byte) : Byte :=
  UInt8.ofNat (hexValue high * 16 + hexValue low)

/-- What the decoder makes of a byte that starts no triple. -/
def decodeByte (b : Byte) : Byte := if b = 43 then 32 else b

/-- `url_decode`. -/
def urlDecode : Bytes → Bytes
  | [] => []
  | [b] => [decodeByte b]
  | [b, c] => [decodeByte b, decodeByte c]
  | b :: high :: low :: rest =>
      if b = 37 ∧ isXDigit high ∧ isXDigit low then
        hexByte high low :: urlDecode rest
      else decodeByte b :: urlDecode (high :: low :: rest)

/-- The lines `std::getline` reads before it fails, with the line read so
far: there is none behind a delimiter at the very end. -/
def getlines (delim : Byte) : (line : Bytes) → Bytes → List Bytes
  | line, [] => if line.isEmpty then [] else [line]
  | line, b :: rest =>
      if b = delim then line :: getlines delim [] rest
      else getlines delim (line ++ [b]) rest

/-- The body of the `while` of `parse_url_form`. -/
def addPair (result : Headers) (keyValPair : Bytes) : Headers :=
  match find (bytes "=") keyValPair with
  | none => result
  | some delimiterPos =>
      result.insert (urlDecode (keyValPair.take delimiterPos))
        (urlDecode (keyValPair.drop (delimiterPos + 1)))

/-- `parse_url_form`. -/
def parseUrlForm (body : Bytes) : Headers :=
  (getlines 38 [] body).foldl addPair ∅

end CgiWebServer
