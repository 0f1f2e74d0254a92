import Upkeep.Config.Response
import Upkeep.Config.Setting
import Upkeep.Event
import Upkeep.Text.Quoted

/-!
This module contains bindings: settings that follow the responses for a key. A deletion, or a text
that cannot be read, leaves the setting as it was.
-/

namespace Upkeep.Config

/--
A setting with the key, encoding and shape of the texts that it is read from.
-/
structure Binding where
  key : String
  encoding : Encoding
  shape : Shape
  current : Setting
  deriving Inhabited

namespace Binding

/--
A binding whose first setting is read from a text.
-/
def ofText (key : String) (encoding : Encoding) (shape : Shape) (text : String) :
    Except ConfigError Binding :=
  match shape.read encoding text with
  | .ok current => .ok { key, encoding, shape, current }
  | .error e => .error e

/--
A binding whose first setting is read from the answer of a source.
-/
def ofAnswer (key : String) (encoding : Encoding) (shape : Shape)
    (answer : Except ConfigError Response) : Except ConfigError Binding :=
  match answer with
  | .ok r => ofText key encoding shape r.value
  | .error e => .error e

/--
Takes in a response. Tells whether the setting was read from it.
-/
def apply (b : Binding) (r : Response) : Binding × Except ConfigError Bool × List Event :=
  match r.kind with
  | .del => (b, .ok false, [.info "config deleted, keep last value" [("key", b.key)]])
  | _ =>
    match b.shape.read b.encoding r.value with
    | .ok v => ({ b with current := v }, .ok true, [])
    | .error e => (b, .error e, [])

/--
The event that a follower of a binding reports after a response was taken in.
-/
def report (b : Binding) : Except ConfigError Bool → List Event
  | .ok true => [.debug "config binding updated" [("key", b.key)]]
  | .ok false => []
  | .error e =>
    [.warn "decode config failed, keep last value" [("key", b.key), ("error", e.message)]]

/--
Takes in a response as a follower does, and reports on it.
-/
def follow (b : Binding) (r : Response) : Binding × List Event :=
  let (b, outcome, events) := b.apply r
  (b, events ++ b.report outcome)

def inspect (b : Binding) : String :=
  Text.inspect "ConfigBinding"
    [("key", Text.quote b.key), ("encoding", b.encoding.inspect),
     ("current", b.current.inspect)]

end Binding

end Upkeep.Config
