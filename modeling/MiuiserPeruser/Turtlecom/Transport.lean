import MiuiserPeruser.Lib.CNumber
import MiuiserPeruser.Lib.History
import MiuiserPeruser.Lib.Run
import Mathlib.Logic.Function.Basic

/-!
# turtlecomd — the two transports (`turtlecomd.c`)

The daemon listens on a Unix socket; where that cannot be bound it listens on
a loopback port instead, which it publishes in a discovery file, and tries the
socket again every thirty seconds. Every call of the kernel on the way may
fail, those whose result the code drops included: an `unlink` that leaves the
name, a discovery file that is cut short. A signal may come at any point, and
the process may be killed at any point and started again.

Clients find the daemon by the path of the socket or by the file. What they
find while it serves is the socket it serves on (`endpoints_truthful`). The
messages themselves are only logged and left out, and one process runs at a
time here: what the lock of the pid file is for (`singleton_unless_raced`).
-/

namespace MiuiserPeruser.Turtlecom

open CText History

def unixRetryIntervalSec : Int := 30

inductive Transport where
  | unix
  | tcp
  deriving DecidableEq

/-- Who calls `bind_unix_socket`: `main` at first, or its loop while the
daemon listens on the port of a socket. -/
inductive Attempt where
  | first
  | retry (tcp : Nat)

/-- Where the process stands; a socket is the one in hand. -/
inductive TransportPc where
  | off
  | unixUnlink (a : Attempt)
  | unixSocket (a : Attempt)
  | unixBind (a : Attempt) (i : Nat)
  | unixListen (a : Attempt) (i : Nat)
  /-- `listen` failed, and the socket is closed. -/
  | unixUndo (a : Attempt)
  | tcpSocket
  | tcpBind (i : Nat)
  | tcpName (i : Nat)
  | tcpOpen (i port : Nat)
  | tcpPrint (i port : Nat)
  | tcpListen (i port : Nat)
  | tcpUndo
  /-- The loop of `main`, with `g_serv_fd`. -/
  | serve (t : Transport) (i : Nat)
  /-- The Unix socket is back. -/
  | switchClose (tcp i : Nat)
  | switchUnlink (i : Nat)
  | signOff (t : Transport) (i : Nat)
  | unlinkLast (t : Transport)

/-- A socket of the kernel. -/
structure Socket where
  port : Option Nat
  listening : Bool

/-- The sockets made so far and those the process has open, what the paths
`TURTLE_SOCKET` and `TURTLE_TCP_DISCOVERY` name, and the statics. -/
structure Daemon where
  made : Nat
  fds : List Nat
  sock : Nat → Socket
  path : Option Nat
  discovery : Option (List Char)
  running : Bool
  lastRetry : Int
  clock : Int
  pc : TransportPc

inductive TransportLabel where
  | start
  /-- The next call, its success, and its number: the port the kernel assigns,
  or the bytes it writes where it fails. An `unlink` has succeeded where its
  path names nothing afterwards. -/
  | next (ok : Bool) (n : Nat)
  | signal
  | crash
  | setClock (now : Int)

inductive TransportEvent where
  /-- The discovery file was written: the whole text, or less. -/
  | printed (whole : Bool)
  /-- On the air. -/
  | online (now : Int)
  /-- A pass of the loop in the fallback. -/
  | pass (now : Int)
  /-- A pass that tries the Unix socket again. -/
  | retried (now : Int)
  | recovered

namespace Daemon

/-- `socket`. -/
def socket (s : Daemon) : Daemon :=
  { s with made := s.made + 1, fds := s.made :: s.fds,
           sock := Function.update s.sock s.made ⟨none, false⟩ }

def close (s : Daemon) (i : Nat) : Daemon := { s with fds := s.fds.erase i }

def listen (s : Daemon) (i : Nat) : Daemon :=
  { s with sock := Function.update s.sock i { s.sock i with listening := true } }

def unlinkPath (s : Daemon) (ok : Bool) : Daemon := if ok then { s with path := .none } else s

def unlinkFile (s : Daemon) (ok : Bool) : Daemon :=
  if ok then { s with discovery := .none } else s

/-- The process ends. -/
def exit (s : Daemon) : Daemon := { s with fds := [], pc := .off }

/-- `bind_unix_socket` returned -1. -/
def unixFailed (s : Daemon) : Attempt → Daemon
  | .first => { s with pc := .tcpSocket }
  | .retry tcp => { s with pc := .serve .tcp tcp }

end Daemon

/-- What is written to the discovery file. -/
def portText (port : Nat) : List Char := decimal port ++ ['\n']

/-- `g_serv_fd`. -/
def TransportPc.servFd : TransportPc → Option Nat
  | .unixUnlink (.retry tcp) | .unixSocket (.retry tcp) | .unixBind (.retry tcp) _
  | .unixListen (.retry tcp) _ | .unixUndo (.retry tcp) => some tcp
  | .serve _ i | .signOff _ i => some i
  | .switchClose tcp _ => some tcp
  | _ => none

/-- A pass of the loop of `main`. -/
def servePass (s : Daemon) (t : Transport) (i : Nat) (ok : Bool) : Daemon × List TransportEvent :=
  if ¬ s.running ∨ ¬ ok then ({ s with pc := .signOff t i }, [])
  else
    match t with
    | .unix => (s, [])
    | .tcp =>
        if unixRetryIntervalSec ≤ s.clock - s.lastRetry then
          ({ s with lastRetry := s.clock, pc := .unixUnlink (.retry i) }, [.retried s.clock])
        else (s, [.pass s.clock])

/-- The next call of the process. -/
def daemonNext (s : Daemon) (ok : Bool) (n : Nat) : Daemon × List TransportEvent :=
  match s.pc with
  | .off => (s, [])
  | .unixUnlink a => ({ s.unlinkPath ok with pc := .unixSocket a }, [])
  | .unixSocket a =>
      (if ok then { s.socket with pc := .unixBind a s.made } else s.unixFailed a, [])
  | .unixBind a i =>
      match ok, s.path with
      | true, none => ({ s with path := some i, pc := .unixListen a i }, [])
      -- a path that names something cannot be bound
      | _, _ => ((s.close i).unixFailed a, [])
  | .unixListen a i =>
      if ok then
        match a with
        | .first =>
            ({ s.listen i with lastRetry := s.clock, pc := .serve .unix i }, [.online s.clock])
        | .retry tcp => ({ s.listen i with pc := .switchClose tcp i }, [])
      else ({ s.close i with pc := .unixUndo a }, [])
  | .unixUndo a => ((s.unlinkPath ok).unixFailed a, [])
  | .tcpSocket => (if ok then { s.socket with pc := .tcpBind s.made } else s.exit, [])
  | .tcpBind i =>
      (if ok then
        { s with sock := Function.update s.sock i { s.sock i with port := some n }, pc := .tcpName i }
      else s.exit, [])
  | .tcpName i =>
      match ok, (s.sock i).port with
      | true, some port => ({ s with pc := .tcpOpen i port }, [])
      | _, _ => (s.exit, [])
  | .tcpOpen i port =>
      (if ok then { s with discovery := some [], pc := .tcpPrint i port } else s.exit, [])
  | .tcpPrint i port =>
      -- nobody looks at what fprintf and fclose return
      let text := if ok then portText port else (portText port).take n
      ({ s with discovery := some text, pc := .tcpListen i port }, [.printed ok])
  | .tcpListen i _ =>
      if ok then ({ s.listen i with lastRetry := s.clock, pc := .serve .tcp i }, [.online s.clock])
      else ({ s.close i with pc := .tcpUndo }, [])
  | .tcpUndo => ((s.unlinkFile ok).exit, [])
  | .serve t i => servePass s t i ok
  | .switchClose tcp i => ({ s.close tcp with pc := .switchUnlink i }, [])
  | .switchUnlink i => ({ s.unlinkFile ok with pc := .serve .unix i }, [.recovered])
  | .signOff t i => ({ s.close i with pc := .unlinkLast t }, [])
  | .unlinkLast .unix => ((s.unlinkPath ok).exit, [])
  | .unlinkLast .tcp => ((s.unlinkFile ok).exit, [])

/-- `handle_shutdown`: what `shutdown` is called on listens no more. -/
def handleShutdown (s : Daemon) : Daemon :=
  match s.pc.servFd with
  | some i =>
      { s with running := false,
               sock := Function.update s.sock i { s.sock i with listening := false } }
  | none => { s with running := false }

def transportStep (s : Daemon) : TransportLabel → Daemon × List TransportEvent
  | .start =>
      match s.pc with
      | .off => ({ s with running := true, pc := .unixUnlink .first }, [])
      | _ => (s, [])
  | .next ok n => daemonNext s ok n
  | .signal => (handleShutdown s, [])
  | .crash => (s.exit, [])
  | .setClock now => ({ s with clock := now }, [])

def Daemon.none : Daemon :=
  ⟨0, [], fun _ => ⟨.none, false⟩, .none, .none, false, 0, 0, .off⟩

/-- One daemon after another, from where none has run. -/
def transportRun (ls : List TransportLabel) : Daemon × List TransportEvent :=
  Machine.run transportStep .none ls

/-! ## What a process has and publishes -/

/-- Whether the discovery file was written in full, of what was reported. -/
def notePrint (whole : Bool) : TransportEvent → Bool
  | .printed whole => whole
  | _ => whole

def lastPrint (tr : List TransportEvent) : Bool := tr.foldl notePrint false

/-- The endpoint clients look for leads to the socket. A discovery file that
was cut short holds a beginning of the port. -/
def Published (whole : Bool) (s : Daemon) (i : Nat) : Transport → Prop
  | .unix => s.path = some i
  | .tcp => ∃ port text, (s.sock i).port = some port ∧ s.discovery = some text ∧
      text <+: portText port ∧ (whole = true → text = portText port)

/-- Until it is told to stop, the process listens on the socket. -/
def Listens (s : Daemon) (i : Nat) : Prop := s.running = true → (s.sock i).listening = true

/-- The sockets the caller of `bind_unix_socket` has open. -/
def Attempt.fds : Attempt → List Nat
  | .first => []
  | .retry tcp => [tcp]

/-- The fallback goes on while the Unix socket is tried. -/
def Backed (whole : Bool) (s : Daemon) : Attempt → Prop
  | .first => True
  | .retry tcp => Listens s tcp ∧ Published whole s tcp .tcp

/-- What the process stands on at every point of its program. -/
def Sound (whole : Bool) (s : Daemon) : Prop :=
  match s.pc with
  | .off | .tcpSocket | .tcpUndo | .unlinkLast _ => s.fds = []
  | .unixUnlink a | .unixSocket a | .unixUndo a => s.fds = a.fds ∧ Backed whole s a
  | .unixBind a i => s.fds = i :: a.fds ∧ i ∉ a.fds ∧ Backed whole s a
  | .unixListen a i => s.fds = i :: a.fds ∧ i ∉ a.fds ∧ Backed whole s a ∧ s.path = some i
  | .tcpBind i | .tcpName i | .signOff _ i => s.fds = [i]
  | .tcpOpen i port | .tcpPrint i port => s.fds = [i] ∧ (s.sock i).port = some port
  | .tcpListen i _ => s.fds = [i] ∧ Published whole s i .tcp
  | .serve t i => s.fds = [i] ∧ Listens s i ∧ Published whole s i t
  | .switchClose tcp i =>
      s.fds = [i, tcp] ∧ i ≠ tcp ∧ (s.sock i).listening = true ∧ s.path = some i
  | .switchUnlink i => s.fds = [i] ∧ (s.sock i).listening = true ∧ s.path = some i

/-- The points at which nothing may be left at the path. -/
def TransportPc.pathFree : TransportPc → Bool
  | .unixListen _ _ | .unixUndo _ | .serve .unix _ | .switchClose _ _ | .switchUnlink _
  | .signOff .unix _ | .unlinkLast .unix => false
  | _ => true

/-- The points at which there may be no discovery file. -/
def TransportPc.fileFree : TransportPc → Bool
  | .unixUnlink (.retry _) | .unixSocket (.retry _) | .unixBind (.retry _) _
  | .unixListen (.retry _) _ | .unixUndo (.retry _) | .tcpPrint _ _ | .tcpListen _ _ | .tcpUndo
  | .serve .tcp _ | .switchClose _ _ | .switchUnlink _ | .signOff .tcp _ | .unlinkLast .tcp => false
  | _ => true

/-- The points before an `unlink`. -/
def TransportPc.unlinks : TransportPc → Bool
  | .unixUnlink _ | .unixUndo _ | .tcpUndo | .switchUnlink _ | .unlinkLast _ => true
  | _ => false

/-- A step that clears away what it means to: the process is not killed, and
an `unlink` leaves nothing. -/
def Tidy (s : Daemon) : TransportLabel → Prop
  | .crash => False
  | .next ok _ => s.pc.unlinks = true → ok = true
  | _ => True

/-- Nothing is left behind. -/
def Clean (s : Daemon) : Prop :=
  (s.pc.pathFree = true → s.path = none) ∧ (s.pc.fileFree = true → s.discovery = none)

/-- When the Unix socket was tried last, of what was reported. -/
def lastTry (tr : List TransportEvent) : Option Int :=
  tr.foldl (fun last e =>
    match e with
    | .online now | .retried now => some now
    | _ => last) none

/-- The retries come when they are due, and not before. -/
def OnTime (pre : List TransportEvent) : TransportEvent → Prop
  | .retried now => ∃ last, lastTry pre = some last ∧ unixRetryIntervalSec ≤ now - last
  | .pass now => ∃ last, lastTry pre = some last ∧ now - last < unixRetryIntervalSec
  | _ => True

/-- The loop has been entered. -/
def TransportPc.inLoop : TransportPc → Bool
  | .unixUnlink (.retry _) | .unixSocket (.retry _) | .unixBind (.retry _) _
  | .unixListen (.retry _) _ | .unixUndo (.retry _) | .serve _ _ | .switchClose _ _
  | .switchUnlink _ => true
  | _ => false

/-- The sockets of the process have been made. -/
def Made (s : Daemon) : Prop := ∀ i ∈ s.fds, i < s.made

structure DaemonInv (s : Daemon) (tr : List TransportEvent) : Prop where
  sound : Sound (lastPrint tr) s
  made : Made s
  tried : s.pc.inLoop = true → lastTry tr = some s.lastRetry
  onTime : Always OnTime tr

section Steps

variable {s : Daemon} {tr : List TransportEvent} {a : Attempt} {i j port : Nat} {t : Transport}
  {whole : Bool}

theorem lastTry_concat (tr : List TransportEvent) (e : TransportEvent) :
    lastTry (tr ++ [e]) = match e with
      | .online now | .retried now => some now
      | _ => lastTry tr := by
  rw [lastTry, List.foldl_append]
  cases e with
  | printed | online | pass | retried | recovered => rfl

/-- What another socket of the process is. -/
theorem sock_update (h : j ≠ i) (v : Socket) : Function.update s.sock i v j = s.sock j :=
  Function.update_of_ne h ..

/-- The fallback does not depend on what becomes of other sockets. -/
theorem Backed.other (h : Backed whole s a) (hi : i ∉ a.fds) (v : Socket) {fds : List Nat}
    {made : Nat} {path : Option Nat} {pc : TransportPc} :
    Backed whole { s with made, fds, path, pc, sock := Function.update s.sock i v } a := by
  cases a with
  | first => trivial
  | retry tcp =>
      have hne : tcp ≠ i := fun heq => hi (by simp [Attempt.fds, heq])
      obtain ⟨hlistens, port, text, hport, hfile⟩ := h
      refine ⟨fun hrun => ?_, port, text, ?_, hfile⟩
      · simp only [sock_update hne]
        exact hlistens hrun
      · simp only [sock_update hne]
        exact hport

theorem Backed.of_eq {s' : Daemon} (h : Backed whole s a) (hsock : s'.sock = s.sock)
    (hfile : s'.discovery = s.discovery) (hrun : s'.running = s.running) : Backed whole s' a := by
  cases a with
  | first => trivial
  | retry tcp =>
      obtain ⟨hlistens, port, text, hport, hdiscovery, htext⟩ := h
      refine ⟨fun h => ?_, port, text, ?_, ?_, htext⟩
      · rw [hsock]
        exact hlistens (hrun ▸ h)
      · rw [hsock]
        exact hport
      · rw [hfile]
        exact hdiscovery

/-- `bind_unix_socket` failed, with its own socket closed. -/
theorem sound_unixFailed (hfds : s.fds = a.fds) (hbacked : Backed whole s a) :
    Sound whole (s.unixFailed a) := by
  cases a with
  | first => exact hfds
  | retry tcp => exact ⟨hfds, hbacked.1, hbacked.2⟩

theorem Made.socket (h : Made s) : Made s.socket := by
  intro j hj
  rcases List.mem_cons.mp hj with rfl | hj
  · exact Nat.lt_succ_self _
  · exact Nat.lt_succ_of_lt (h j hj)

theorem Made.close (h : Made s) (i : Nat) : Made (s.close i) := fun j hj => h j (List.mem_of_mem_erase hj)

theorem made_exit (s : Daemon) : Made s.exit := fun _ hj => (nomatch hj)

theorem Made.unixFailed (h : Made s) (a : Attempt) : Made (s.unixFailed a) := by
  cases a with
  | first | retry tcp => exact h

theorem Made.next (h : Made s) (ok : Bool) (n : Nat) : Made (daemonNext s ok n).1 := by
  unfold daemonNext
  cases hpc : s.pc with
  | off | tcpPrint i port => exact h
  | unixUnlink a | switchUnlink i => cases ok <;> exact h
  | unixSocket a =>
      cases ok with
      | true => exact h.socket
      | false => exact h.unixFailed a
  | unixBind a i =>
      simp only
      split
      · exact h
      · exact (h.close i).unixFailed a
  | unixListen a i =>
      cases ok with
      | true =>
          cases a with
          | first | retry tcp => exact h
      | false => exact h.close i
  | unixUndo a =>
      cases ok with
      | true => exact Made.unixFailed (s := s.unlinkPath true) h a
      | false => exact Made.unixFailed (s := s.unlinkPath false) h a
  | tcpSocket =>
      cases ok with
      | true => exact h.socket
      | false => exact made_exit s
  | tcpBind i | tcpOpen i port =>
      cases ok with
      | true => exact h
      | false => exact made_exit s
  | tcpName i =>
      simp only
      split
      · exact h
      · exact made_exit s
  | tcpListen i port =>
      cases ok with
      | true => exact h
      | false => exact h.close i
  | tcpUndo => exact made_exit _
  | serve t i =>
      simp only [servePass]
      split
      · exact h
      · cases t with
        | unix => exact h
        | tcp =>
            simp only
            split
            · exact h
            · exact h
  | switchClose tcp i => exact h.close tcp
  | signOff t i => exact h.close i
  | unlinkLast t =>
      cases t with
      | unix | tcp => exact made_exit _

/-- **One call**: what the process stands on behind it. -/
theorem Sound.next (h : Sound whole s) (hmade : Made s) (ok : Bool) (n : Nat) :
    Sound ((daemonNext s ok n).2.foldl notePrint whole) (daemonNext s ok n).1 := by
  unfold Sound at h
  unfold daemonNext
  cases hpc : s.pc with
  | off =>
      rw [hpc] at h
      simpa only [Sound, hpc] using h
  | unixUnlink a =>
      rw [hpc] at h
      cases ok <;> exact ⟨h.1, h.2.of_eq rfl rfl rfl⟩
  | unixSocket a =>
      rw [hpc] at h
      obtain ⟨hfds, hbacked⟩ := h
      cases ok with
      | true =>
          have hnew : s.made ∉ a.fds := fun hmem =>
            Nat.lt_irrefl _ (hmade s.made (by rw [hfds]; exact hmem))
          exact ⟨by rw [← hfds]; rfl, hnew, hbacked.other hnew _⟩
      | false => exact sound_unixFailed hfds hbacked
  | unixBind a i =>
      rw [hpc] at h
      obtain ⟨hfds, hnew, hbacked⟩ := h
      simp only
      split
      · exact ⟨hfds, hnew, hbacked.of_eq rfl rfl rfl, rfl⟩
      · refine sound_unixFailed ?_ (hbacked.of_eq rfl rfl rfl)
        show s.fds.erase i = a.fds
        rw [hfds, List.erase_cons_head]
  | unixListen a i =>
      rw [hpc] at h
      obtain ⟨hfds, hnew, hbacked, hpath⟩ := h
      have hlisten : (Function.update s.sock i { s.sock i with listening := true } i).listening =
          true := by rw [Function.update_self]
      cases ok with
      | true =>
          cases a with
          | first => exact ⟨hfds, fun _ => hlisten, hpath⟩
          | retry tcp =>
              exact ⟨hfds, fun heq => hnew (by simp [Attempt.fds, heq]), hlisten, hpath⟩
      | false =>
          refine ⟨?_, hbacked.of_eq rfl rfl rfl⟩
          show s.fds.erase i = a.fds
          rw [hfds, List.erase_cons_head]
  | unixUndo a =>
      rw [hpc] at h
      cases ok <;> exact sound_unixFailed (s := s.unlinkPath _) h.1 (h.2.of_eq rfl rfl rfl)
  | tcpSocket =>
      rw [hpc] at h
      cases ok with
      | true =>
          show s.made :: s.fds = [s.made]
          rw [show s.fds = [] from h]
      | false => rfl
  | tcpBind i =>
      rw [hpc] at h
      cases ok with
      | true => exact h
      | false => rfl
  | tcpName i =>
      rw [hpc] at h
      simp only
      split
      · rename_i port hport
        exact ⟨h, hport⟩
      · rfl
  | tcpOpen i port =>
      rw [hpc] at h
      cases ok with
      | true => exact h
      | false => rfl
  | tcpPrint i port =>
      rw [hpc] at h
      cases ok with
      | true => exact ⟨h.1, port, _, h.2, rfl, List.prefix_rfl, fun _ => rfl⟩
      | false => exact ⟨h.1, port, _, h.2, rfl, List.take_prefix n _, fun hwhole => (nomatch hwhole)⟩
  | tcpListen i port' =>
      rw [hpc] at h
      obtain ⟨hfds, port, text, hport, hfile⟩ := h
      cases ok with
      | true =>
          refine ⟨hfds, fun _ => ?_, port, text, ?_, hfile⟩
          · show (Function.update s.sock i _ i).listening = true
            rw [Function.update_self]
          · show (Function.update s.sock i _ i).port = some port
            rw [Function.update_self]
            exact hport
      | false =>
          show s.fds.erase i = []
          rw [hfds, List.erase_cons_head]
  | tcpUndo => rfl
  | serve t i =>
      rw [hpc] at h
      obtain ⟨hfds, hlistens, hpublished⟩ := h
      simp only [servePass]
      split
      · exact hfds
      · cases t with
        | unix =>
            simp only [Sound, hpc]
            exact ⟨hfds, hlistens, hpublished⟩
        | tcp =>
            simp only
            split
            · exact ⟨hfds, hlistens, hpublished⟩
            · simp only [Sound, hpc]
              exact ⟨hfds, hlistens, hpublished⟩
  | switchClose tcp i =>
      rw [hpc] at h
      obtain ⟨hfds, hne, hlisten, hpath⟩ := h
      refine ⟨?_, hlisten, hpath⟩
      show s.fds.erase tcp = [i]
      rw [hfds, List.erase_cons_tail (by simpa using hne), List.erase_cons_head]
  | switchUnlink i =>
      rw [hpc] at h
      cases ok <;> exact ⟨h.1, fun _ => h.2.1, h.2.2⟩
  | signOff t i =>
      rw [hpc] at h
      show s.fds.erase i = []
      rw [show s.fds = [i] from h, List.erase_cons_head]
  | unlinkLast t =>
      cases t with
      | unix | tcp => rfl

/-- A call that leaves nothing behind. -/
theorem Clean.next (h : Clean s) {ok : Bool} (n : Nat) (htidy : s.pc.unlinks = true → ok = true) :
    Clean (daemonNext s ok n).1 := by
  obtain ⟨hpath, hfile⟩ := h
  unfold daemonNext
  cases hpc : s.pc with
  | off =>
      rw [hpc] at hpath hfile
      exact ⟨fun _ => hpath rfl, fun _ => hfile rfl⟩
  | unixUnlink a =>
      rw [hpc] at hpath hfile htidy
      rw [htidy rfl]
      cases a with
      | first => exact ⟨fun _ => rfl, fun _ => hfile rfl⟩
      | retry tcp => exact ⟨fun _ => rfl, fun h => (nomatch h)⟩
  | unixSocket a =>
      rw [hpc] at hpath hfile
      cases a with
      | first => cases ok <;> exact ⟨fun _ => hpath rfl, fun _ => hfile rfl⟩
      | retry tcp => cases ok <;> exact ⟨fun _ => hpath rfl, fun h => (nomatch h)⟩
  | unixBind a i =>
      rw [hpc] at hpath hfile
      simp only
      split
      · cases a with
        | first => exact ⟨fun h => (nomatch h), fun _ => hfile rfl⟩
        | retry tcp => exact ⟨fun h => (nomatch h), fun h => (nomatch h)⟩
      · cases a with
        | first => exact ⟨fun _ => hpath rfl, fun _ => hfile rfl⟩
        | retry tcp => exact ⟨fun _ => hpath rfl, fun h => (nomatch h)⟩
  | unixListen a i =>
      rw [hpc] at hpath hfile
      cases a with
      | first => cases ok <;> exact ⟨fun h => (nomatch h), fun _ => hfile rfl⟩
      | retry tcp => cases ok <;> exact ⟨fun h => (nomatch h), fun h => (nomatch h)⟩
  | unixUndo a =>
      rw [hpc] at hpath hfile htidy
      rw [htidy rfl]
      cases a with
      | first => exact ⟨fun _ => rfl, fun _ => hfile rfl⟩
      | retry tcp => exact ⟨fun _ => rfl, fun h => (nomatch h)⟩
  | tcpSocket | tcpBind i =>
      rw [hpc] at hpath hfile
      cases ok <;> exact ⟨fun _ => hpath rfl, fun _ => hfile rfl⟩
  | tcpName i =>
      rw [hpc] at hpath hfile
      simp only
      split
      · exact ⟨fun _ => hpath rfl, fun _ => hfile rfl⟩
      · exact ⟨fun _ => hpath rfl, fun _ => hfile rfl⟩
  | tcpOpen i port =>
      rw [hpc] at hpath hfile
      cases ok with
      | true => exact ⟨fun _ => hpath rfl, fun h => (nomatch h)⟩
      | false => exact ⟨fun _ => hpath rfl, fun _ => hfile rfl⟩
  | tcpPrint i port =>
      rw [hpc] at hpath hfile
      exact ⟨fun _ => hpath rfl, fun h => (nomatch h)⟩
  | tcpListen i port =>
      rw [hpc] at hpath hfile
      cases ok <;> exact ⟨fun _ => hpath rfl, fun h => (nomatch h)⟩
  | tcpUndo =>
      rw [hpc] at hpath hfile htidy
      rw [htidy rfl]
      exact ⟨fun _ => hpath rfl, fun _ => rfl⟩
  | serve t i =>
      simp only [servePass]
      cases t with
      | unix =>
          split
          · rw [hpc] at hpath hfile
            exact ⟨fun h => (nomatch h), fun _ => hfile rfl⟩
          · exact ⟨hpath, hfile⟩
      | tcp =>
          split
          · rw [hpc] at hpath hfile
            exact ⟨fun _ => hpath rfl, fun h => (nomatch h)⟩
          · simp only
            split
            · rw [hpc] at hpath hfile
              exact ⟨fun _ => hpath rfl, fun h => (nomatch h)⟩
            · exact ⟨hpath, hfile⟩
  | switchClose tcp i => exact ⟨fun h => (nomatch h), fun h => (nomatch h)⟩
  | switchUnlink i =>
      rw [hpc] at htidy
      rw [htidy rfl]
      exact ⟨fun h => (nomatch h), fun _ => rfl⟩
  | signOff t i =>
      rw [hpc] at hpath hfile
      cases t with
      | unix => exact ⟨fun h => (nomatch h), fun _ => hfile rfl⟩
      | tcp => exact ⟨fun _ => hpath rfl, fun h => (nomatch h)⟩
  | unlinkLast t =>
      rw [hpc] at hpath hfile htidy
      rw [htidy rfl]
      cases t with
      | unix => exact ⟨fun _ => rfl, fun _ => hfile rfl⟩
      | tcp => exact ⟨fun _ => hpath rfl, fun _ => rfl⟩

/-- A signal stops the process, and changes nothing that is published. -/
theorem Sound.signal (h : Sound whole s) : Sound whole (handleShutdown s) := by
  have hport : ∀ i, ((handleShutdown s).sock i).port = (s.sock i).port := by
    intro i
    unfold handleShutdown
    cases s.pc.servFd with
    | none => rfl
    | some j =>
        by_cases hij : i = j
        · subst hij
          simp only [Function.update_self]
        · simp only [Function.update_of_ne hij]
  have hsame : (handleShutdown s).running = false ∧ (handleShutdown s).fds = s.fds ∧
      (handleShutdown s).path = s.path ∧ (handleShutdown s).discovery = s.discovery ∧
      (handleShutdown s).pc = s.pc := by
    unfold handleShutdown
    cases s.pc.servFd <;> exact ⟨rfl, rfl, rfl, rfl, rfl⟩
  obtain ⟨hrunning, hfds, hpath, hfile, hpc'⟩ := hsame
  have hlistens : ∀ i, Listens (handleShutdown s) i := by
    intro i hrun
    rw [hrunning] at hrun
    cases hrun
  have hpublished : ∀ {i t}, Published whole s i t → Published whole (handleShutdown s) i t := by
    intro i t h
    cases t with
    | unix => exact hpath.trans h
    | tcp =>
        obtain ⟨port, text, hp, hd, htext⟩ := h
        exact ⟨port, text, (hport i).trans hp, hfile.trans hd, htext⟩
  have hbacked : ∀ {a}, Backed whole s a → Backed whole (handleShutdown s) a := by
    intro a h
    cases a with
    | first => trivial
    | retry tcp => exact ⟨hlistens tcp, hpublished h.2⟩
  unfold Sound at h ⊢
  rw [hpc']
  cases hpc : s.pc with
  | off | tcpSocket | tcpUndo | unlinkLast t =>
      rw [hpc] at h
      exact hfds.trans h
  | unixUnlink a | unixSocket a | unixUndo a =>
      rw [hpc] at h
      exact ⟨hfds.trans h.1, hbacked h.2⟩
  | unixBind a i =>
      rw [hpc] at h
      exact ⟨hfds.trans h.1, h.2.1, hbacked h.2.2⟩
  | unixListen a i =>
      rw [hpc] at h
      exact ⟨hfds.trans h.1, h.2.1, hbacked h.2.2.1, hpath.trans h.2.2.2⟩
  | tcpBind i | tcpName i | signOff t i =>
      rw [hpc] at h
      exact hfds.trans h
  | tcpOpen i port | tcpPrint i port =>
      rw [hpc] at h
      exact ⟨hfds.trans h.1, (hport i).trans h.2⟩
  | tcpListen i port =>
      rw [hpc] at h
      exact ⟨hfds.trans h.1, hpublished h.2⟩
  | serve t i =>
      rw [hpc] at h
      exact ⟨hfds.trans h.1, hlistens i, hpublished h.2.2⟩
  | switchClose tcp i =>
      rw [hpc] at h
      obtain ⟨hf, hne, hlisten, hp⟩ := h
      refine ⟨hfds.trans hf, hne, ?_, hpath.trans hp⟩
      -- `g_serv_fd` is still the old socket
      simp only [handleShutdown, hpc, TransportPc.servFd, Function.update_of_ne hne]
      exact hlisten
  | switchUnlink i =>
      rw [hpc] at h
      refine ⟨hfds.trans h.1, ?_, hpath.trans h.2.2⟩
      simp only [handleShutdown, hpc, TransportPc.servFd]
      exact h.2.1

/-- A step of which nothing is reported. -/
theorem DaemonInv.silent {d : Daemon} (h : DaemonInv s tr)
    (htried : d.pc.inLoop = true → s.pc.inLoop = true ∧ d.lastRetry = s.lastRetry) :
    (d.pc.inLoop = true → lastTry (tr ++ []) = some d.lastRetry) ∧ Always OnTime (tr ++ []) := by
  rw [List.append_nil]
  refine ⟨fun hloop => ?_, h.onTime⟩
  rw [(htried hloop).2]
  exact h.tried (htried hloop).1

/-- What one call reports. -/
theorem DaemonInv.reports (h : DaemonInv s tr) (ok : Bool) (n : Nat) :
    ((daemonNext s ok n).1.pc.inLoop = true →
      lastTry (tr ++ (daemonNext s ok n).2) = some (daemonNext s ok n).1.lastRetry) ∧
    Always OnTime (tr ++ (daemonNext s ok n).2) := by
  have honline : lastTry (tr ++ [.online s.clock]) = some s.clock ∧
      Always OnTime (tr ++ [.online s.clock]) := ⟨lastTry_concat tr _, h.onTime.snoc trivial⟩
  unfold daemonNext
  cases hpc : s.pc with
  | off => exact h.silent fun hloop => ⟨hloop, rfl⟩
  | unixBind a i =>
      simp only
      cases a with
      | first => split <;> exact h.silent fun hloop => (nomatch hloop)
      | retry tcp => split <;> exact h.silent fun _ => ⟨by rw [hpc]; rfl, rfl⟩
  | unixUnlink a | unixUndo a | unixSocket a =>
      cases a with
      | first => cases ok <;> exact h.silent fun hloop => (nomatch hloop)
      | retry tcp => cases ok <;> exact h.silent fun _ => ⟨by rw [hpc]; rfl, rfl⟩
  | unixListen a i =>
      cases a with
      | first =>
          cases ok with
          | true => exact ⟨fun _ => honline.1, honline.2⟩
          | false => exact h.silent fun hloop => (nomatch hloop)
      | retry tcp => cases ok <;> exact h.silent fun _ => ⟨by rw [hpc]; rfl, rfl⟩
  | tcpSocket | tcpBind i | tcpOpen i port => cases ok <;> exact h.silent fun hloop => (nomatch hloop)
  | tcpName i =>
      simp only
      split <;> exact h.silent fun hloop => (nomatch hloop)
  | tcpPrint i port => exact ⟨fun hloop => (nomatch hloop), h.onTime.snoc trivial⟩
  | signOff t i => exact h.silent fun hloop => (nomatch hloop)
  | tcpUndo => cases ok <;> exact h.silent fun hloop => (nomatch hloop)
  | unlinkLast t => cases t <;> cases ok <;> exact h.silent fun hloop => (nomatch hloop)
  | tcpListen i port =>
      cases ok with
      | true => exact ⟨fun _ => honline.1, honline.2⟩
      | false => exact h.silent fun hloop => (nomatch hloop)
  | switchClose tcp i => exact h.silent fun _ => ⟨by rw [hpc]; rfl, rfl⟩
  | switchUnlink i =>
      have htried := h.tried (by rw [hpc]; rfl)
      cases ok <;>
        exact ⟨fun _ => (lastTry_concat tr _).trans htried, h.onTime.snoc trivial⟩
  | serve t i =>
      have htried := h.tried (by rw [hpc]; rfl)
      simp only [servePass]
      split
      · exact h.silent fun hloop => (nomatch hloop)
      · cases t with
        | unix => exact h.silent fun hloop => ⟨hloop, rfl⟩
        | tcp =>
            simp only
            split
            · rename_i hdue
              exact ⟨fun _ => lastTry_concat tr _, h.onTime.snoc ⟨_, htried, hdue⟩⟩
            · rename_i hdue
              exact ⟨fun _ => (lastTry_concat tr _).trans htried,
                h.onTime.snoc ⟨_, htried, not_le.mp hdue⟩⟩

theorem DaemonInv.step (h : DaemonInv s tr) (l : TransportLabel) :
    DaemonInv (transportStep s l).1 (tr ++ (transportStep s l).2) := by
  cases l with
  | next ok n =>
      obtain ⟨htried, honTime⟩ := h.reports ok n
      refine ⟨?_, h.made.next ok n, htried, honTime⟩
      rw [lastPrint, List.foldl_append]
      exact h.sound.next h.made ok n
  | start =>
      simp only [transportStep]
      split
      · rename_i hpc
        have hsound := h.sound
        rw [Sound, hpc] at hsound
        obtain ⟨htried, honTime⟩ := h.silent (d := { s with running := true, pc := .unixUnlink .first })
          fun hloop => (nomatch hloop)
        exact ⟨⟨hsound, trivial⟩, h.made, htried, honTime⟩
      · obtain ⟨htried, honTime⟩ := h.silent (d := s) fun hloop => ⟨hloop, rfl⟩
        exact ⟨by rw [List.append_nil]; exact h.sound, h.made, htried, honTime⟩
  | signal =>
      have hkept : (handleShutdown s).pc = s.pc ∧ (handleShutdown s).lastRetry = s.lastRetry ∧
          (handleShutdown s).fds = s.fds ∧ (handleShutdown s).made = s.made := by
        unfold handleShutdown
        cases s.pc.servFd <;> exact ⟨rfl, rfl, rfl, rfl⟩
      obtain ⟨hpc, hlast, hfds, hmade⟩ := hkept
      obtain ⟨htried, honTime⟩ := h.silent (d := handleShutdown s) fun hloop => ⟨hpc ▸ hloop, hlast⟩
      refine ⟨?_, fun i hi => ?_, htried, honTime⟩
      · rw [transportStep, List.append_nil]
        exact h.sound.signal
      · show i < (handleShutdown s).made
        rw [hmade]
        exact h.made i (hfds ▸ hi)
  | crash =>
      obtain ⟨htried, honTime⟩ := h.silent (d := s.exit) fun hloop => (nomatch hloop)
      exact ⟨rfl, made_exit s, htried, honTime⟩
  | setClock now =>
      have hsound : Sound (lastPrint tr) { s with clock := now } := by
        have hbacked : ∀ {a}, Backed (lastPrint tr) s a →
            Backed (lastPrint tr) { s with clock := now } a :=
          fun h => h.of_eq rfl rfl rfl
        have hs := h.sound
        unfold Sound at hs ⊢
        cases hpc : s.pc with
        | unixUnlink a | unixSocket a | unixUndo a =>
            rw [hpc] at hs
            exact ⟨hs.1, hbacked hs.2⟩
        | unixBind a i =>
            rw [hpc] at hs
            exact ⟨hs.1, hs.2.1, hbacked hs.2.2⟩
        | unixListen a i =>
            rw [hpc] at hs
            exact ⟨hs.1, hs.2.1, hbacked hs.2.2.1, hs.2.2.2⟩
        | serve t i =>
            rw [hpc] at hs
            cases t <;> exact hs
        | off | tcpSocket | tcpUndo | unlinkLast t | tcpBind i | tcpName i | signOff t i
        | tcpOpen i port | tcpPrint i port | tcpListen i port | switchClose tcp i | switchUnlink i =>
            rw [hpc] at hs
            exact hs
      obtain ⟨htried, honTime⟩ := h.silent (d := { s with clock := now }) fun hloop => ⟨hloop, rfl⟩
      refine ⟨?_, h.made, htried, honTime⟩
      rw [transportStep, List.append_nil]
      exact hsound

/-- A tidy step leaves nothing behind. -/
theorem Clean.step (h : Clean s) {l : TransportLabel} (hl : Tidy s l) :
    Clean (transportStep s l).1 := by
  cases l with
  | next ok n => exact h.next n hl
  | start =>
      simp only [transportStep]
      split
      · rename_i hpc
        obtain ⟨hpath, hfile⟩ := h
        rw [hpc] at hpath hfile
        exact ⟨fun _ => hpath rfl, fun _ => hfile rfl⟩
      · exact h
  | signal =>
      simp only [transportStep, handleShutdown]
      cases s.pc.servFd with
      | none | some i => exact h
  | crash => exact hl.elim
  | setClock now => exact h

end Steps

/-! ## The endpoints -/

theorem daemonInv_run (ls : List TransportLabel) :
    DaemonInv (transportRun ls).1 (transportRun ls).2 := by
  refine Machine.run_invariant (P := DaemonInv) ?_ (fun _ _ l h => h.step l) ls
  exact ⟨rfl, fun _ hi => (nomatch hi), fun h => (nomatch h), .nil⟩

theorem clean_run {ls : List TransportLabel} (h : Machine.Meets transportStep Tidy .none ls) :
    Clean (transportRun ls).1 :=
  Machine.run_invariant_of_meets (P := fun s _ => Clean s) ⟨fun _ => rfl, fun _ => rfl⟩
    (fun _ _ _ h hl => h.step hl) h

/-- **What clients find is what the daemon serves.** In every run of one
daemon after another, whichever calls fail and whenever signals come or the
process is killed:

* while a daemon serves, the socket it serves on is the only one it has open,
  it listens on it until it is told to stop, and the endpoint of its transport
  leads to it, but for a discovery file that was cut short as it was written;
* a daemon that has ended has no socket open;
* as long as none has been killed and no `unlink` has left its name, the
  endpoint of the other transport is not there, and after a daemon has ended
  there is neither;
* in the fallback a pass of the loop tries the Unix socket again if and only if
  thirty seconds have gone by since the last time. -/
theorem endpoints_truthful (ls : List TransportLabel) :
    let s := (transportRun ls).1
    (∀ t i, s.pc = .serve t i →
      s.fds = [i] ∧ (s.running = true → (s.sock i).listening = true) ∧
        Published (lastPrint (transportRun ls).2) s i t) ∧
    (s.pc = .off → s.fds = []) ∧
    (Machine.Meets transportStep Tidy .none ls →
      (∀ i, s.pc = .serve .unix i → s.discovery = none) ∧
      (∀ i, s.pc = .serve .tcp i → s.path = none) ∧
      (s.pc = .off → s.path = none ∧ s.discovery = none)) ∧
    Always OnTime (transportRun ls).2 := by
  intro s
  have hinv := daemonInv_run ls
  have hsound : Sound (lastPrint (transportRun ls).2) s := hinv.sound
  refine ⟨fun t i hpc => ?_, fun hpc => ?_, fun htidy => ?_, hinv.onTime⟩
  · rw [Sound, hpc] at hsound
    exact hsound
  · rw [Sound, hpc] at hsound
    exact hsound
  · obtain ⟨hpath, hfile⟩ := clean_run htidy
    refine ⟨fun i hpc => ?_, fun i hpc => ?_, fun hpc => ⟨?_, ?_⟩⟩
    · exact hfile (by rw [show (transportRun ls).1.pc = _ from hpc]; rfl)
    · exact hpath (by rw [show (transportRun ls).1.pc = _ from hpc]; rfl)
    · exact hpath (by rw [show (transportRun ls).1.pc = _ from hpc]; rfl)
    · exact hfile (by rw [show (transportRun ls).1.pc = _ from hpc]; rfl)

/-- The Unix socket fails at first, and comes back half a minute later. -/
example : (transportRun ([.start, .next true 0, .next false 0] ++ List.replicate 6 (.next true 40123) ++
    [.setClock 29, .next true 0, .setClock 30] ++ List.replicate 7 (.next true 0))).2 =
    [.printed true, .online 0, .pass 29, .retried 30, .recovered] := by rfl

end MiuiserPeruser.Turtlecom
