import PiFunk.CTypes

/-!
# The string constants of the program

Each constant has the source's text; the proof beside its characters says that none of them ends
the string.
-/

namespace PiFunk

/-- `"sound.wav"`. -/
def soundWav : CString := ⟨[0x73, 0x6F, 0x75, 0x6E, 0x64, 0x2E, 0x77, 0x61, 0x76], by decide⟩

/-- `"fm"`. -/
def fm : CString := ⟨[0x66, 0x6D], by decide⟩

/-- `"am"`. -/
def am : CString := ⟨[0x61, 0x6D], by decide⟩

/-- `"on"`. -/
def on : CString := ⟨[0x6F, 0x6E], by decide⟩

/-- `"off"`. -/
def off : CString := ⟨[0x6F, 0x66, 0x66], by decide⟩

/-- `"callsign"`. -/
def callsignText : CString :=
  ⟨[0x63, 0x61, 0x6C, 0x6C, 0x73, 0x69, 0x67, 0x6E], by decide⟩

/-- `"file.ft"`. -/
def fileFt : CString := ⟨[0x66, 0x69, 0x6C, 0x65, 0x2E, 0x66, 0x74], by decide⟩

end PiFunk
