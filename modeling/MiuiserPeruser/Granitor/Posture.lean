import MiuiserPeruser.Lib.Streak
import MiuiserPeruser.Lib.Strstr
import MiuiserPeruser.Granitor.Attestation

/-!
# granitord — the posture of a device (`granitord.c`)

A poll starts at 100 and takes points off for what it finds; a property that
is not answered counts as found, except SELinux, and six parameters of the
kernel that SELinux may hide. Three more things raise an alarm: a parameter
that is not what it was at the start, what the two audits list, and a score
that fell twice in a row (`posture_exact`). The rule for a file system that
failed is never met, since nobody reports one.
-/

namespace MiuiserPeruser.Granitor

open CText History Machine Streak

/-! ## Parameters of the kernel -/

/-- `params`. -/
inductive Param where
  | kptrRestrict
  | dmesgRestrict
  | perfEventParanoid
  | randomizeVaSpace
  | protectedHardlinks
  | protectedSymlinks
  deriving DecidableEq

def Param.path : Param → String
  | kptrRestrict => "/proc/sys/kernel/kptr_restrict"
  | dmesgRestrict => "/proc/sys/kernel/dmesg_restrict"
  | perfEventParanoid => "/proc/sys/kernel/perf_event_paranoid"
  | randomizeVaSpace => "/proc/sys/kernel/randomize_va_space"
  | protectedHardlinks => "/proc/sys/fs/protected_hardlinks"
  | protectedSymlinks => "/proc/sys/fs/protected_symlinks"

def params : List Param :=
  [.kptrRestrict, .dmesgRestrict, .perfEventParanoid, .randomizeVaSpace, .protectedHardlinks,
    .protectedSymlinks]

/-- What `fopen` meets at a path; `denied` is `EACCES`. -/
inductive ParamFile where
  | opened (text : List Char)
  | denied
  | missing
  deriving DecidableEq

/-- `fscanf` with `%ld`, into a variable that is -1; nothing if the file is not open. -/
def ParamFile.value : ParamFile → Option Int
  | opened text =>
      match scanf percentLD text with
      | .num n :: _ => some n
      | _ => some (-1)
  | denied => none
  | missing => none

/-- `param_baseline_t`. -/
structure ParamBaseline where
  param : Param
  value : Int

/-- The parameters of `establish_baseline`. -/
def baselineParams (files : Param → ParamFile) : List ParamBaseline :=
  params.filterMap fun k => (files k).value.map (⟨k, ·⟩)

/-- An entry of the drift. -/
def driftEntry (b : ParamBaseline) (current now : Int) : Entry :=
  ⟨b.param.path, snprintf 512 ("\x7b\"param\":\"".toList ++ b.param.path.toList ++ "\",\"baseline\":".toList ++
    formatD b.value ++ ",\"current\":".toList ++ formatD current ++ ",\"changed_at\":\"".toList ++
    formatD now ++ "\"\x7d,".toList)⟩

/-- What a poll is answered: the properties, what can be seen at a path, the parameters when they
are scored and when they are compared, the clock at each entry of the drift, and the answers to
the two audits. -/
structure Answers where
  getenforce : Option (List Char)
  bootSelinux : Option (List Char)
  verifiedBootState : Option (List Char)
  flashLocked : Option (List Char)
  secure : Option (List Char)
  debuggable : Option (List Char)
  access : String → Bool
  scored : Param → ParamFile
  compared : Param → ParamFile
  now : Param → Int
  vbmetaDev : Option (List Char)
  vbmetaSha : Option (List Char)
  tee : Option (List Char)
  initRc : Option (List Char)
  postfs : Option (List Char)
  bootDev : Option (List Char)
  bootSha : Option (List Char)

/-- `contains`. -/
def contains (s : List Char) (needle : String) : Bool := (strstr needle.toList s).isSome

/-- A property in a buffer of `size` characters, or what stands for it. -/
def propText (result : Option (List Char)) (unset : String) (size : Nat) : List Char :=
  let text := rishRead result 4096
  (if text.length > 0 then text else unset.toList).take (size - 1)

def unknown : List Char := "unknown".toList

/-- What `getenforce` says, and the property if it says nothing. -/
def selinuxText (a : Answers) : List Char :=
  let se := rishRead a.getenforce 4096
  if se.length > 0 ∧ contains se "Permission" = false then se.take 31
  else propText a.bootSelinux "unknown" 32

/-- `selinux_read_blocked`. -/
def selinuxReadBlocked (a : Answers) : Bool :=
  selinuxText a = unknown || contains (selinuxText a) "Request timeout" || contains (selinuxText a) "Permission"

/-- `selinux`. -/
def selinux (a : Answers) : List Char := if selinuxReadBlocked a then unknown else selinuxText a

def enforcing (a : Answers) : Bool := contains (selinux a) "enforcing" || contains (selinux a) "Enforcing"

def hasSu (a : Answers) : Bool :=
  a.access "/system/bin/su" || a.access "/system/xbin/su" || a.access "/sbin/su" || a.access "/su/bin/su"

def hasMagisk (a : Answers) : Bool := a.access "/data/adb/magisk" || a.access "/data/adb/modules"

def rooted (a : Answers) : Bool := hasSu a || hasMagisk a

/-- `kparam_eacces`. -/
def kparamEacces (a : Answers) : Bool := params.any fun k => a.scored k = .denied

/-- A parameter of the score; -1 if it cannot be read. -/
def kparam (a : Answers) (k : Param) : Int := (a.scored k).value.getD (-1)

def selinuxBlocksKernelParams (a : Answers) : Bool := kparamEacces a && enforcing a

/-- The score of `poll_security`. -/
def score (a : Answers) : Int :=
  let score : Int := 100
  let score := if !selinuxReadBlocked a && !enforcing a then score - 25 else score
  let score := if propText a.verifiedBootState "unknown" 32 ≠ "green".toList then score - 15 else score
  let score := if propText a.flashLocked "unknown" 16 ≠ ['1'] then score - 10 else score
  let score := if propText a.secure "(unset)" 8 ≠ ['1'] then score - 10 else score
  let score := if propText a.debuggable "(unset)" 8 = ['1'] then score - 10 else score
  let score := if rooted a then score - 20 else score
  if kparamEacces a && enforcing a then score
  else
    let score := if kparam a .kptrRestrict < 1 then score - 2 else score
    let score := if kparam a .dmesgRestrict < 1 then score - 2 else score
    let score := if kparam a .perfEventParanoid = -1 then score - 3 else score
    let score := if kparam a .randomizeVaSpace < 2 then score - 3 else score
    let score := if kparam a .protectedHardlinks = 0 then score - 1 else score
    if kparam a .protectedSymlinks = 0 then score - 1 else score

/-- The statics of the daemon. -/
structure Daemon where
  params : List ParamBaseline
  state : State

/-- The audits of a poll. -/
def Answers.poll (a : Answers) (drift : List Entry) : Poll :=
  { vbmetaDev := a.vbmetaDev, vbmetaSha := a.vbmetaSha, tee := a.tee, initRc := a.initRc, postfs := a.postfs
    bootDev := a.bootDev, bootSha := a.bootSha
    score := Granitor.score a
    enforcing := Granitor.enforcing a
    rooted := Granitor.rooted a
    drift := jsonText 4096 drift }

/-- `establish_baseline`, before the first poll. -/
def Daemon.start (probe : BaselineProbe) (files : Param → ParamFile) : Daemon :=
  ⟨baselineParams files, Granitor.start probe⟩

/-- What points are taken off for. -/
inductive Finding where
  | permissive
  | bootState
  | unlocked
  | insecure
  | debuggable
  | root
  | param (k : Param)

/-- The values of a parameter that points are taken off for. -/
def Param.weak : Param → Int → Bool
  | kptrRestrict, v => v < 1
  | dmesgRestrict, v => v < 1
  | perfEventParanoid, v => v = -1
  | randomizeVaSpace, v => v < 2
  | protectedHardlinks, v => v = 0
  | protectedSymlinks, v => v = 0

def Finding.holds (a : Answers) : Finding → Bool
  | permissive => selinux a ≠ unknown && !enforcing a
  | bootState => propText a.verifiedBootState "unknown" 32 ≠ "green".toList
  | unlocked => propText a.flashLocked "unknown" 16 ≠ ['1']
  | insecure => propText a.secure "(unset)" 8 ≠ ['1']
  | debuggable => propText a.debuggable "(unset)" 8 = ['1']
  | root => rooted a
  | param k => !selinuxBlocksKernelParams a && k.weak (kparam a k)

def Finding.points : Finding → Int
  | permissive => 25
  | bootState => 15
  | unlocked => 10
  | insecure => 10
  | debuggable => 10
  | root => 20
  | param .kptrRestrict => 2
  | param .dmesgRestrict => 2
  | param .perfEventParanoid => 3
  | param .randomizeVaSpace => 3
  | param .protectedHardlinks => 1
  | param .protectedSymlinks => 1

def findings : List Finding :=
  [.permissive, .bootState, .unlocked, .insecure, .debuggable, .root] ++ params.map .param

section Score

variable {a : Answers}

/-- Points that are taken off for something. -/
def off (found : Bool) (points : Int) : Int := if found then points else 0

end Score

/-! ## The drift and the audits -/

section Lists

variable {files : Param → ParamFile} {a : Answers} {b : Baseline} {now : Param → Int}

end Lists

/-! ## The correlation -/

section Correlation

variable {confirmed enforcing rooted : Bool} {drift attest persist : List Char}

end Correlation

/-! ## A run -/

section Runs

variable {probe : BaselineProbe} {files : Param → ParamFile} {before : List Answers} {a : Answers}

end Runs

end MiuiserPeruser.Granitor
