import LanguageClient.Session.Receive

/-! Running a session: one task after the other, the tasks that a task leaves first.

A handler may call for itself again without end, so a run counts its steps.
-/

set_option autoImplicit false
namespace LanguageClient.Session

/-- Completes what is held in a slot; an empty slot is left alone. -/
def complete (s : Session) (slot : Nat) (request : RequestReply) (notification : NotificationReply)
    (peer : PeerReply) : Turn :=
  match s.held.lookup slot with
  | none => { session := s }
  | some held =>
      let s := { s with held := s.held.filter fun entry => entry.1 != slot }
      match held with
      | .responder r => s.answer r .null request
      | .acknowledger a => s.settleNotification a notification
      | .completion c =>
          match peer with
          | .hold => { session := s.hold (.completion c) }
          | .deliver outcome => { session := s, tasks := [.finish c outcome] }

def release (s : Session) : Held → Turn
  | .responder r => s.dropResponder r
  | .acknowledger a => s.dropAcknowledger a
  | .completion _ => { session := s }

def updateScript (s : Session) (change : ScriptedPeer → ScriptedPeer) : Session :=
  match s.transport with
  | .scripted peer => { s with transport := .scripted (change peer) }
  | .connection _ => s

def setSink (s : Session) (reactions : List Frame.Reaction) (failing : Option StreamError) : Session :=
  match s.transport with
  | .connection c =>
      let sink := { c.writer.sink with reactions, failing }
      { s with transport := .connection { c with writer := { c.writer with sink } } }
  | .scripted _ => s

def perform (s : Session) : Op → Turn
  | .attach => { session := s.attach }
  | .setRequestHandler handler => { session := { s with requestHandler := some handler } }
  | .setNotificationHandler handler => { session := { s with notificationHandler := some handler } }
  | .clearRequestHandler => { session := { s with requestHandler := none } }
  | .clearNotificationHandler => { session := { s with notificationHandler := none } }
  | .request id method payload => s.handleRequest .direct id method payload
  | .notify method payload => s.handleNotification .direct method payload
  | .reportError e => s.reportError e
  | .script reply =>
      { session := s.updateScript fun peer => { peer with replies := peer.replies ++ [reply] } }
  | .failNotifications e =>
      { session := s.updateScript fun peer => { peer with notificationFault := e } }
  | .complete slot request notification peer => s.complete slot request notification peer
  | .sendRequest method params result after => s.sendRequest method params result after
  | .sendNotification method params after => s.sendNotification method params after
  | .rawRequest method params after => s.sendRawRequest method params after
  | .rawNotification method params after => s.sendRawNotification method params after
  | .setTracing enabled => { session := { s with tracing := enabled } }
  | .getTracing => { session := s, events := [.tracing s.tracing] }
  | .setSink reactions failing => { session := s.setSink reactions failing }
  | .serve input => { session := s, tasks := [.receive .start [] input] }

def step (s : Session) : Task → Turn
  | .perform op => s.perform op
  | .answer r echoed reply => s.answer r echoed reply
  | .acknowledge a reply => s.settleNotification a reply
  | .finish c outcome => s.finish c outcome
  | .receive phase bytes input => s.receive phase bytes input
  | .stopped outcome => { session := s, events := [.served outcome] }
  | .release held => s.release held

/-- Up to so many steps, from a session with its tasks: what could be seen, the session
after them and the tasks left. -/
def run : Nat → Session → List Task → Turn
  | 0, s, tasks => { session := s, tasks }
  | _ + 1, s, [] => { session := s }
  | steps + 1, s, task :: tasks =>
      let turn := s.step task
      let rest := run steps turn.session (turn.tasks ++ tasks)
      { rest with events := turn.events ++ rest.events }

def execute (steps : Nat) (s : Session) (op : Op) : Turn := s.run steps [.perform op]

def releaseAll (steps : Nat) (s : Session) : Turn :=
  run steps { s with held := [] } (s.held.map fun entry => .release entry.2)

end LanguageClient.Session
