import Multidomain.Flow.Rule
import Multidomain.Topology.Route
import Multidomain.Wire.Command

/-!
# Rules along a route

A device on the way of some traffic gets two rules for it: an urgent, lasting one that matches the
address that frames go to, and a less urgent, short-lived one that matches the port they come in by
and the address they come from. `oneWay` lays such pairs along the topology's route between two
connect points, `bothWays` also along the route back, no rule twice.
-/

namespace Multidomain

/-- Priority of the rule that matches port and source address. -/
def sourcePriority : UInt32 := 41000

def sourceTimeout : UInt32 := 5

/-- Priority of the rule that matches the destination address. -/
def destinationPriority : UInt32 := 50000

def destinationTimeout : UInt32 := 30

/-- The two rules of one device, which send frames that came in by `inPort` out by `output`. -/
def hopRules (app : String) (inPort : PortNumber) (output : ConnectPoint) (t : Terminal) :
    List FlowDescriptor :=
  [.forwarding output.device app sourcePriority sourceTimeout
     [.inPort inPort, .ethSrc t.src] output.port,
   .forwarding output.device app destinationPriority destinationTimeout
     [.ethDst t.dst] output.port]

/-- The rules along links for frames that come in by `inPort`, up to the device of `dst`. -/
def rulesAlong (app : String) (t : Terminal) (dst : ConnectPoint) :
    PortNumber → List Link → List FlowDescriptor
  | inPort, [] => hopRules app inPort dst t
  | inPort, l :: rest => hopRules app inPort l.src t ++ rulesAlong app t dst l.dst.port rest

namespace Topology

/-- The rules that carry frames from `src` to `dst`; none where no route leads from the one device
to the other. -/
def oneWay (topology : Topology) (app : String) (src dst : ConnectPoint) (t : Terminal) :
    List FlowDescriptor :=
  match topology.route? src.device dst.device with
  | some links => rulesAlong app t dst src.port links
  | none => if src.device = dst.device then rulesAlong app t dst src.port [] else []

/-- The rules that carry frames from `src` to `dst` and back. -/
def bothWays (topology : Topology) (app : String) (src dst : ConnectPoint) (t : Terminal) :
    List FlowDescriptor :=
  (topology.oneWay app src dst t ++ topology.oneWay app dst src t.swapped).eraseDups

end Topology

end Multidomain
