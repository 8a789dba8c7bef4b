/-!
# Numbers that both sides agree on

Status codes, release modes and interface versions are fixed for good: compiled native code holds
them.  A version has its major number in the high half of a 32-bit word and its minor number in
the low half; which one a runtime reports follows from the language level of its guest.
-/

namespace GuestBoundary

/-- What status-reporting functions answer. -/
inductive Status where
  | ok
  | err
  | detached
  | version
  | noMemory
  | exists
  | invalid
  deriving DecidableEq

namespace Status

def all : List Status := [ok, err, detached, version, noMemory, «exists», invalid]

def code : Status → Int32
  | ok => 0
  | err => -1
  | detached => -2
  | version => -3
  | noMemory => -4
  | «exists» => -5
  | invalid => -6

end Status

/-- What becomes of an element buffer and its array when the buffer is released. -/
inductive ReleaseMode where
  /-- Copy back and free. -/
  | finish
  /-- Copy back and keep the buffer. -/
  | commit
  /-- Free without copying back. -/
  | abort
  deriving DecidableEq

namespace ReleaseMode

def code : ReleaseMode → Int32
  | finish => 0
  | commit => 1
  | abort => 2

def ofCode? (code : Int32) : Option ReleaseMode :=
  if code = 0 then some finish
  else if code = 1 then some commit
  else if code = 2 then some abort
  else none

def copiesBack : ReleaseMode → Bool
  | abort => false
  | _ => true

def frees : ReleaseMode → Bool
  | commit => false
  | _ => true

end ReleaseMode

/-- An interface version. -/
structure Version where
  code : Int32
  deriving DecidableEq

namespace Version

/-- The version with the given major and minor numbers. -/
def of (major minor : Nat) : Version := ⟨Int32.ofNat (major * 65536 + minor)⟩

/-- Every version a caller may ask for. -/
def known : List Version :=
  [of 1 1, of 1 2, of 1 4, of 1 6, of 1 8, of 9 0, of 10 0, of 19 0, of 20 0, of 21 0]

/-- The version that a guest language level stands for. -/
def ofLanguageLevel (level : Nat) : Version :=
  if level ≤ 8 then of 1 8
  else if level = 9 then of 9 0
  else if level ≤ 18 then of 10 0
  else if level = 19 then of 19 0
  else if level = 20 then of 20 0
  else of 21 0

/-- Whether a runtime of version `current` grants a request: the version is a known one and not
newer. -/
def isSupported (requested current : Version) : Bool :=
  known.contains requested && requested.code ≤ current.code

def major (v : Version) : Nat := v.code.toUInt32.toNat / 65536

def minor (v : Version) : Nat := v.code.toUInt32.toNat % 65536

end Version

end GuestBoundary
