import DeviceConnector.Digest.Md5
import DeviceConnector.Digest.Sha1
import DeviceConnector.Identifier.Namespace
import DeviceConnector.Identifier.Text
/-!
# Minting identifiers from names and random bits

A version nibble and two variant bits are written over a digest or over random bits. Version five
identifiers carry one more set bit in the variant byte, which the installed base depends on.
-/

namespace DeviceConnector.Dsuid

def withVersion (version : BitVec 4) (uuid : BitVec 128) : BitVec 128 :=
  uuid.extractLsb' 80 48 ++ version ++ uuid.extractLsb' 0 76

def withVariant (uuid : BitVec 128) : BitVec 128 :=
  uuid.extractLsb' 64 64 ++ 0b10#2 ++ uuid.extractLsb' 0 62

def ofDigest (digest : List UInt8) : BitVec 128 :=
  BitVec.ofNat 128 (Text.ofBigEndian (digest.take 16))

def hashed (ns : Namespace) (name : String) : ByteArray :=
  ⟨ns.bytes.toArray⟩ ++ name.toUTF8

def ofNameMd5 (ns : Namespace) (name : String) : Dsuid :=
  ofUuid (withVariant (withVersion 3 (ofDigest (Digest.Md5.digest (hashed ns name)))))

/-- Name-based identifier of version five, bit 4 of the variant byte being set as well. -/
def ofNameSha1 (ns : Namespace) (name : String) : Dsuid :=
  let uuid := withVariant (withVersion 5 (ofDigest (Digest.Sha1.digest (hashed ns name))))
  ofUuid (uuid ||| (1#128 <<< 60))

def ofRandom (bits : BitVec 128) : Dsuid := ofUuid (withVariant (withVersion 4 bits))

end DeviceConnector.Dsuid
