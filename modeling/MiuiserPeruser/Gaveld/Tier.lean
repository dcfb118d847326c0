import MiuiserPeruser.Lib.CText
import MiuiserPeruser.Gaveld.Config

/-!
# gaveld — source tiers (`tier.c`)

Which sources are the court's own daemons, which the user has put on the
sovereignty list, which are system packages, and the score multiplier
each tier gets.
-/

namespace MiuiserPeruser.Gaveld

open CText

/-- `OWN_DAEMONS`: daemons of the fleet, legacy daemons, judicial layer. -/
def ownDaemons : List String :=
  ["splinterd", "krangd", "turtlecomd", "rahzerd",
   "leatherheadd", "metalheadd", "granitord", "ratkingd",
   "shredderd", "fugitoidd", "bebopd", "burned", "rocksteadyd",
   "tigerclawd",
   "connectivityd", "networkd", "foot_clan_supreme",
   "foot_portwatchd", "foot_resurrectord", "foot_ipcshadowd",
   "footrunner", "cpud", "processd", "storaged", "thermald",
   "sysportd", "daemonhunterd", "miuiserperuser",
   "miuiserperuser-daemon", "miuid", "brain-ctl",
   "april_o_neil", "court_orchestrator", "court_core_engine",
   "judge_executor", "parole_engine", "scoring_engine",
   "scored", "gaveld", "internal_affairs", "consent_gate",
   "escalation_daemon", "visitors_pass_daemon",
   "turtlepower_daemon", "superhero_adapter", "superhero",
   "baxter_stockman", "court_dispatcher"]

def systemPrefixes : List String :=
  ["com.miui.", "com.xiaomi.", "com.hyperos.", "android.",
   "com.android.", "miui.", "com.lbe.", "com.qualcomm.",
   "com.qti.", "org.codeaurora."]

/-- Strip the path: `/data/…/rahzerd` becomes `rahzerd`. -/
def basenameOf (source : String) : String := String.ofList (afterLast '/' source.toList)

def tierIsOwnDaemon (source : String) : Bool := basenameOf source ∈ ownDaemons

/-- The content of `state/sovereignty.list`, `none` when it cannot be opened. -/
abbrev SovereigntyList := Option String

/-- The package a line of the list names: the text before `|`, cut to the
255 characters of `pkg`, without trailing blanks. Comment lines and empty
lines name none. -/
def sovereigntyPkg (line : List Char) : Option String :=
  if line.head? = some '#' ∨ line.head? = some '\n' then none
  else
    let pkg := (scanUntil ['|', '\n'] 255 line).rdropWhile fun c => c = ' ' ∨ c = '\t'
    if pkg = [] then none else some (String.ofList pkg)

def tierIsSovereignty (list : SovereigntyList) (source : String) : Bool :=
  match list with
  | none => false
  | some text => (fgetsLines 512 text.toList).any fun line => sovereigntyPkg line = some source

def tierIsSystem (source : String) : Bool :=
  systemPrefixes.any fun p => p.toList.isPrefixOf source.toList

def tierModifier (list : SovereigntyList) (source : String) : ℚ :=
  if source = "" then tierModUnknown
  else if tierIsOwnDaemon source then tierModOwnDaemon
  else if tierIsSovereignty list source then tierModSovereignty
  else if tierIsSystem source then tierModMiuiAosp
  else tierModUnknown

theorem tierModifier_pos (list : SovereigntyList) (source : String) :
    0 < tierModifier list source := by
  unfold tierModifier
  split_ifs <;> norm_num

end MiuiserPeruser.Gaveld
