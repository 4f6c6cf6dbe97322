import Spycat.Detector.CpuDetector
import Spycat.Util.TrieCodec

/-! What a remote upstream sends for a job. -/

namespace Spycat

/-- A request to take a profile in. -/
structure ProfileRequest where
  query : List (String × String)
  headers : List (String × String)
  body : Bytes

/-- The whole seconds from 1970 to a point in time. -/
def Time.unix (t : Time) : Int := t / 10 ^ 9 - 62135596800

/-- What becomes of a job: its profile is printed, or a request is posted. -/
inductive ProfileUpload where
  | printed (body : Bytes)
  | posted (request : ProfileRequest)

/-- The bytes of the profile. -/
def ProfileUpload.body : ProfileUpload → Bytes
  | .printed body => body
  | .posted request => request.body

/-- Upload a job; absent where the source panics, for a profile that cannot be written. -/
def RemoteConfig.uploadProfile (cfg : RemoteConfig) (j : UploadJob) : Option ProfileUpload :=
  j.trie.bytes.map fun body =>
    if cfg.upstreamAddress = "local" then .printed body
    else .posted
      { query :=
          [("name", j.name), ("from", toString j.startTime.unix),
            ("until", toString j.endTime.unix), ("spyName", j.spyName),
            ("sampleRate", toString j.sampleRate.toNat), ("units", "samples"),
            ("aggregationType", "sum")]
        headers := ("Content-Type", "binary/octet-stream+trie") ::
          if cfg.authToken ≠ "" then [("Authorization", "Bearer " ++ cfg.authToken)] else []
        body := body }

end Spycat
