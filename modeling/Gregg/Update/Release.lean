import Gregg.Lib.Json
import Gregg.Lib.Search
import Gregg.Startup.Path
import Gregg.Update.Version

/-!
# Releases

What is published for a version: the targets, the names of the assets and their addresses, the
metadata of a crate, the checksum of an asset, and how a program says which version it is.
-/

namespace Gregg.Update

/-- What the updating program was built for, and the parts of it that come from libraries: the
hash, the parser of metadata and how a text shows in a message. -/
structure Host where
  os : String
  arch : String
  sha256 : List UInt8 → List UInt8
  parseJson : List UInt8 → Except String Json
  debug : String → String

/-- Identity of one updatable program. -/
structure UpdateSpec where
  crateName : String
  programName : String
  currentVersion : String

section Targets

def GITHUB_REPO : String := "eggstack/gregg"

def SUPPORTED_TARGETS : List String :=
  ["x86_64-unknown-linux-gnu", "aarch64-unknown-linux-gnu", "x86_64-apple-darwin",
    "aarch64-apple-darwin", "x86_64-pc-windows-msvc"]

def detectTargetFor (os arch : String) : Option String :=
  match os, arch with
  | "linux", "x86_64" => some "x86_64-unknown-linux-gnu"
  | "linux", "aarch64" => some "aarch64-unknown-linux-gnu"
  | "macos", "x86_64" => some "x86_64-apple-darwin"
  | "macos", "aarch64" => some "aarch64-apple-darwin"
  | "windows", "x86_64" => some "x86_64-pc-windows-msvc"
  | _, _ => none

def isSupportedBinaryTarget (target : String) : Bool :=
  SUPPORTED_TARGETS.contains target

/-- Whatever a host is detected as, there are assets for it. -/
theorem isSupported_of_detectTargetFor {os arch target : String}
    (detects : detectTargetFor os arch = some target) : isSupportedBinaryTarget target = true := by
  unfold detectTargetFor at detects
  split at detects <;> cases detects <;> decide

def assetName (program target : String) : String :=
  if target = "x86_64-pc-windows-msvc" then s!"{program}-{target}.exe" else s!"{program}-{target}"

/-- The address of an asset and the one of its checksum. -/
def githubUrls (program target version : String) : String × String :=
  let asset := assetName program target
  let base := s!"https://github.com/{GITHUB_REPO}/releases/download/v{version}/{asset}"
  (base, s!"{base}.sha256")

end Targets

section Metadata

def MAX_CRATES_IO_BYTES : ℕ := 256 * 1024

/-- `str::len`. -/
def byteLen (text : List Char) : ℕ :=
  Json.byteLen text

def isValidCrateName (name : List Char) : Bool :=
  !name.isEmpty && byteLen name ≤ 64 &&
    name.all fun character => character.isAlphanum || character == '-' || character == '_'

/-- `serde_json::Value::get`. -/
def getField (key : String) : Json → Option Json
  | .object fields => (fields.find? fun field => field.1 == key).map (·.2)
  | _ => none

/-- `serde_json::Value::as_str`. -/
def asStr : Json → Option (List Char)
  | .string text => some text
  | _ => none

/-- The version a body of metadata gives, or what is wrong with it. -/
def parseStableVersionResponse (host : Host) (body : List UInt8) : Except String String := do
  if MAX_CRATES_IO_BYTES < body.length then .error "crates.io response too large"
  else
    let json ← (host.parseJson body).mapError fun error => s!"crates.io JSON parse failed: {error}"
    match ((getField "crate" json).bind (getField "max_stable_version")).bind asStr with
    | none => .error "crates.io response missing crate.max_stable_version"
    | some version =>
        if version.isEmpty then .error "crates.io returned empty max_stable_version"
        else if parseStableVersion version = none then
          .error s!"crates.io returned non-stable version: {String.ofList version}"
        else .ok (String.ofList version)

end Metadata

section Verification

def MAX_CHECKSUM_FILE_BYTES : ℕ := 4096

def isAsciiHexdigit (character : Char) : Bool :=
  (Text.hexValue character).isSome

/-- `to_ascii_lowercase`. -/
def toAsciiLowercase (text : List Char) : List Char :=
  text.map Char.toLower

/-- The digest in the text of a checksum file: its first word. -/
def publishedDigest (host : Host) (content : List Char) : Except String (List Char) :=
  match (Text.splitWhitespace content).head? with
  | none => .error "checksum file empty"
  | some hash =>
      if byteLen hash ≠ 64 ∨ hash.all isAsciiHexdigit = false then
        .error s!"checksum file has invalid hash: {host.debug (String.ofList hash)}"
      else .ok (toAsciiLowercase hash)

/-- Each byte as two hexadecimal digits. -/
def hexDigest (bytes : List UInt8) : List Char :=
  bytes.flatMap fun byte => Text.formatHex 2 byte.toNat

/-- What a program is to say about its version. -/
def identityLine (program version : String) : List Char :=
  s!"{program} {version}".toList

def candidateOutputMatches (program expectedVersion : String) (stdout : List Char) : Bool :=
  let normalized := (Text.stripSuffix '\n' stdout).getD stdout
  let normalized := (Text.stripSuffix '\r' normalized).getD normalized
  normalized == identityLine program expectedVersion

/-- How a line may end that is compared. -/
def LINE_ENDINGS : List (List Char) :=
  [[], ['\n'], ['\r'], ['\r', '\n']]

/-- Removing one line break leaves the text before it, if there is one. -/
theorem eq_of_stripSuffix_getD {suffix : Char} {text rest : List Char}
    (strips : (Text.stripSuffix suffix text).getD text = rest) :
    text = rest ∨ text = rest ++ [suffix] := by
  cases stripped : Text.stripSuffix suffix text with
  | none =>
      rw [stripped] at strips
      exact .inl strips
  | some trimmed =>
      rw [stripped] at strips
      cases strips
      exact .inr (Text.stripSuffix_eq_some stripped)

/-- A program that passes said its name and its version, on one line and nothing else. -/
theorem exists_of_candidateOutputMatches {program version : String} {stdout : List Char}
    (passes : candidateOutputMatches program version stdout = true) :
    ∃ ending ∈ LINE_ENDINGS, stdout = identityLine program version ++ ending := by
  have line := beq_iff_eq.mp passes
  rcases eq_of_stripSuffix_getD line with bare | withReturn
  · rcases eq_of_stripSuffix_getD bare with whole | withNewline
    · exact ⟨[], by simp [LINE_ENDINGS], by simpa using whole⟩
    · exact ⟨['\n'], by simp [LINE_ENDINGS], withNewline⟩
  · rcases eq_of_stripSuffix_getD withReturn with whole | withNewline
    · exact ⟨['\r'], by simp [LINE_ENDINGS], whole⟩
    · exact ⟨['\r', '\n'], by simp [LINE_ENDINGS], by simpa using withNewline⟩

end Verification

end Gregg.Update
