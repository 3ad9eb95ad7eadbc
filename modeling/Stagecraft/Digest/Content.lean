import Stagecraft.Digest.Sha256
import Stagecraft.Json.Printer
import Stagecraft.Reel.Basic

/-!
# Content digests

Values are told apart by a digest of their compact texts. Each text goes into the digest behind
its length, so that the parts of a value cannot be divided in another way.
-/

namespace Stagecraft

variable {K : Type}

/-- A number in eight octets, least significant first. -/
def littleEndian (n : Nat) : List UInt8 :=
  (List.range 8).map fun i => UInt8.ofNat (n >>> (8 * i))

def Json.octets [Numeral K] (v : Json K) : List UInt8 :=
  v.compact.toUTF8.toList

/-- The octets a part puts into a digest. -/
def framed (octets : List UInt8) : List UInt8 :=
  littleEndian octets.length ++ octets

/-- The octets a sequence of values puts into a digest. -/
def contentStream [Numeral K] (parts : List (Json K)) : List UInt8 :=
  parts.flatMap fun v => framed v.octets

def contentHash [Numeral K] (parts : List (Json K)) : String :=
  Sha256.hex (Sha256.digest (contentStream parts))

/-- Everything of a reel that is played back; diagnostics are not. -/
def Reel.parts (r : Reel K) : List (Json K) :=
  [.str r.name, r.fps.toJson, .ofNat r.lastFrame, .arr (r.actors.map ActorReel.toJson),
    .arr (r.cameras.map CameraReel.toJson), .arr (r.lights.map Light.toJson),
    .arr (r.timeline.map ReelEvent.toJson)]

def Reel.contentHash [Numeral K] (r : Reel K) : String :=
  Stagecraft.contentHash r.parts

end Stagecraft
