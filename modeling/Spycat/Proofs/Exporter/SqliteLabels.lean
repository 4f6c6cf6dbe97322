import Spycat.Exporter.Sqlite
import Spycat.Proofs.Detector.LabelSwitch

/-! What the columns of a row read out of the labels that were stored for a record. -/

namespace Spycat.Sqlite

open Lib

variable {entries : List (String × AttributeValue)} {label : String}

/-- A number that was stored under a label goes into its column cut to 32 bits. -/
theorem uintLabel_stored {value : UInt64}
    (last : Assoc.lastValue label entries = some (.int value.toInt64)) :
    uintLabel (storedLabels entries) label = value.toUInt32 := by
  -- The label is read back as a signed number, whose bits are those that were stored.
  rw [uintLabel, getIntValue_stored last, UInt64.toUInt64_toInt64]

/-- A label that was not stored reads as zero. -/
theorem uintLabel_missing (missing : Assoc.lastValue label entries = none) :
    uintLabel (storedLabels entries) label = 0 := by
  -- An attribute that is not there has the value zero, before it is cut.
  have absent : (storedLabels entries).getIntValue label = 0 := by
    simp [AttributeMap.getIntValue, storedLabels, Assoc.lookup_insertAll, missing]
  rw [uintLabel, absent]
  rfl

end Spycat.Sqlite
