import EspMiplay.Miplay.Session

/-!
# Session keys and device identity

What a fresh control session computes before its first frame: the key derived
from the TCP four-tuple, the random challenge, the fourteen-digit device id;
and the HMAC of the mutual authentication.
-/

namespace EspMiplay.Miplay

/-- The bytes of an `in_addr_t` in memory order. -/
def ipBytes (ip : UInt32) : List UInt8 :=
  [ip.toUInt8, (ip >>> 8).toUInt8, (ip >>> 16).toUInt8, (ip >>> 24).toUInt8]

/-- `"%u.%u.%u.%u%u"` of an address and a port. -/
def endpointText (ip : UInt32) (port : UInt16) : Bytes :=
  List.intercalate (ascii ".") ((ipBytes ip).map fun b => decimal b.toNat) ++ decimal port.toNat

/-- Digits become the letters from `a` on. -/
def letterOfDigit (c : UInt8) : UInt8 := if isDigit c then 0x61 + (c - 0x30) else c

/-- `authKey`: MD5 of the transformed four-tuple, local end first, in hexadecimal. -/
def authKeyOf (env : Env) (peerIp : UInt32) (peerPort : UInt16) (localIp : UInt32)
    (localPort : UInt16) : Bytes :=
  hexToLower (env.md5
    ((endpointText localIp localPort ++ endpointText peerIp peerPort).map letterOfDigit)).toList

/-- `derive_session_key`: key and both IVs are the first sixteen characters. -/
def deriveSessionKey (env : Env) (peerIp : UInt32) (peerPort : UInt16) (localIp : UInt32)
    (localPort : UInt16) : M Unit :=
  let authKey := authKeyOf env peerIp peerPort localIp localPort
  modifyRegs fun r =>
    { r with
      aesKey := Block.ofBytes authKey
      encryptIv := Block.ofBytes authKey
      decryptIv := Block.ofBytes authKey
      authKey := authKey ++ [0]
      hasSessionKey := true }

/-- `generate_auth_msg`: four random words, little endian, in hexadecimal. -/
def generateAuthMsg (env : Env) : M Unit := do
  let a ← oracle env.random
  let b ← oracle env.random
  let c ← oracle env.random
  let d ← oracle env.random
  modifyRegs fun r => { r with authMsg := hexToLower ([a, b, c, d].flatMap ipBytes) ++ [0] }

/-- `hmac_sha256`. -/
def hmacSha256 (env : Env) (key msg : Bytes) : Bytes :=
  let key := if key.length > 64 then (env.sha256 key).toList else key
  let kPad := key ++ List.replicate (64 - key.length) 0
  let inner := (env.sha256 (kPad.map (· ^^^ 0x36) ++ msg)).toList
  (env.sha256 (kPad.map (· ^^^ 0x5C) ++ inner)).toList

def hexDigitUpper (n : UInt8) : UInt8 := if n < 10 then 0x30 + n else 0x41 + (n - 10)

/-- `%0<width>llu` -/
def decimalPadded (width n : Nat) : Bytes :=
  List.replicate (width - (decimal n).length) 0x30 ++ decimal n

/-- The fourteen digits of DEVICE_ID. -/
def deviceIdDigits (env : Env) : Bytes :=
  let id := env.mac.toList.flatMap fun b : UInt8 =>
    [hexDigitUpper (b >>> 4), hexDigitUpper (b &&& 0x0F)]
  decimalPadded 14 (opackU64Be (env.md5 id).toList % 100000000000000)

/-- One `[keyLen, key, 0x0C, valLen(2 BE), value]` of the device information. -/
def deviceInfoField (key value : Bytes) : Bytes :=
  UInt8.ofNat key.length :: key ++ 0x0C :: putBe16 (UInt16.ofNat value.length) ++ value

/-- `build_device_info_payload`. -/
def buildDeviceInfoPayload (env : Env) : Bytes :=
  [0x00, 0x01, 0x55] ++
    [(ascii "alonePlayCapacity", ascii "0"), (ascii "canAlonePlayCtrl", ascii "1"),
      (ascii "canHeadsetCtrl", ascii "0"), (ascii "canRevCtrl", ascii "1"), (ascii "channel", []),
      (ascii "deviceId", env.deviceId), (ascii "deviceType", ascii "2"),
      (ascii "model", ascii "Android TV"), (ascii "needAblum", ascii "1"),
      (ascii "needLrc", ascii "1"), (ascii "needPos", ascii "1"), (ascii "romVersion", []),
      (ascii "support", ascii "audio")].flatMap fun f => deviceInfoField f.1 f.2

end EspMiplay.Miplay
