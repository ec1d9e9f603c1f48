/-
Loading the secret tokens are signed with (config.cpp, `loadJWTSecret`
and what it calls).

The `JWT` element names a file, or holds the secret, or asks for a random
one; the first of `SecretFile`, `Secret` and `GenerateSecret` that is
there decides. The secret is empty until one of them sets it.
-/
import CgiWebServer.Startup.Roles

namespace CgiWebServer

/-- Why a call failed: `errno` and `strerror`, or tinyxml2's `ErrorID`
and `ErrorStr`. -/
structure Failure where
  number : Int
  text : Bytes
  deriving DecidableEq

/-- A file that a secret is read from: whether `open` succeeds, the size
`fstat` tells, and what the `read`s return, data or an error, before they
return nothing. -/
structure SecretFile where
  openError : Option Failure := none
  fstat : Except Failure Nat := .ok 0
  reads : List (Except Failure Bytes) := []

/-- `DEFAULT_JWT_SECRET_SIZE`. -/
def defaultJwtSecretSize : Nat := 64

/-- A buffer of a given number of bytes. -/
def Buffer (len : Nat) : Type := { buffer : Bytes // buffer.length = len }

-- ============================================================ secret file

/-- A `FATAL` over the secret's file. -/
def secretFileFatal {α : Type} (what : String) (filePath suffix : Bytes) :
    Except Abort α :=
  .error (.fatal (bytes what ++ bytes "[" ++ cStr filePath ++ bytes "]"
    ++ suffix))

/-- The `errno=%d %s` behind a message. -/
def errnoText (e : Failure) : Bytes :=
  bytes ", errno=" ++ toStr e.number ++ bytes " " ++ e.text

/-- The `while` that reads: up to the size `fstat` told, or until a read
returns nothing or fails. -/
def readSecret (size : Nat) (secret : Bytes) :
    List (Except Failure Bytes) → Except Failure Bytes
  | [] => .ok secret
  | answer :: rest =>
      if secret.length < size then
        match answer with
        | .error e => .error e
        | .ok data =>
            let data := data.take (size - secret.length)
            if data.isEmpty then .ok secret
            else readSecret size (secret ++ data) rest
      else .ok secret

/-- `loadJWTSecretFromFile`. -/
def loadJwtSecretFromFile (files : Bytes → SecretFile)
    (secretElem : XMLElement) : Except Abort Bytes :=
  let filePath := secretElem.text.getD []
  let file := files (cStr filePath)
  match file.openError with
  | some e =>
      secretFileFatal "failed to open jwt secret file" filePath (errnoText e)
  | none =>
      match file.fstat with
      | .error e =>
          secretFileFatal "failed to stat jwt secret file" filePath
            (errnoText e)
      | .ok size =>
          match readSecret size [] file.reads with
          | .error e =>
              secretFileFatal "failed to read jwt secret file" filePath
                (errnoText e)
          | .ok secret =>
              if secret.length ≠ size then
                secretFileFatal "jwt secret file" filePath
                  (bytes " read incomplete, " ++ toStr secret.length
                    ++ bytes "/" ++ toStr size ++ bytes " bytes read")
              else if secret.isEmpty then
                secretFileFatal "invalid jwt secret file" filePath
                  (bytes ", file may be empty")
              else .ok secret

-- ========================================================== random secret

/-- A digit of `std::hex`. -/
def hexDigit (n : Nat) : Byte :=
  if n < 10 then UInt8.ofNat (48 + n) else UInt8.ofNat (87 + n)

/-- `convert_to_hex`: two digits a byte. -/
def convertToHex (buffer : Bytes) : Bytes :=
  buffer.flatMap fun b => [hexDigit (b.toNat / 16), hexDigit (b.toNat % 16)]

/-- `generate_rand_secret`; `randBytes` is `RAND_bytes`, which fills the
whole buffer or fails. -/
def generateRandSecret (randBytes : (len : Nat) → Option (Buffer len))
    (len : Nat) : Except Abort Bytes :=
  match randBytes len with
  | none => fatal "failed to generate jwt secret"
  | some buffer => .ok (convertToHex buffer.val)

/-- `generateJWTSecret`: a `Length` that is no `int` throws, and so does
the buffer of a negative one, which no vector is as large as. -/
def generateJwtSecret (randBytes : (len : Nat) → Option (Buffer len))
    (secretElem : XMLElement) : Except Abort Bytes :=
  if !isTrue secretElem "enable" then .ok []
  else
    match (secretElem.firstChildElement (bytes "Length")).bind (·.text) with
    | none => generateRandSecret randBytes defaultJwtSecretSize
    | some text =>
        match stoi text with
        | none => .error (.threw (.std (bytes "stoi")))
        | some secretLen =>
            if secretLen < 0 then
              .error (.threw (.std (bytes
                "cannot create std::vector larger than max_size()")))
            else generateRandSecret randBytes secretLen.toNat

-- ================================================================= loader

/-- `loadJWTSecret`: what it leaves in `secret`, which is empty before. -/
def loadJwtSecret (files : Bytes → SecretFile)
    (randBytes : (len : Nat) → Option (Buffer len))
    (serverConfig : XMLElement) : Except Abort Bytes :=
  match serverConfig.firstChildElement (bytes "JWT") with
  | none => .ok []
  | some jwtElem =>
      match jwtElem.firstChildElement (bytes "SecretFile") with
      | some secretElem => loadJwtSecretFromFile files secretElem
      | none =>
          match jwtElem.firstChildElement (bytes "Secret") with
          | some secretElem =>
              let secret := secretElem.text.getD []
              if secret.isEmpty then
                fatal "loading configuration: jwt secret string is invalid"
              else .ok secret
          | none =>
              match jwtElem.firstChildElement (bytes "GenerateSecret") with
              | some secretElem => generateJwtSecret randBytes secretElem
              | none => .ok []

end CgiWebServer
