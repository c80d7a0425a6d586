import ConsumerGroups.Failure
import ConsumerGroups.Text.Quoted

/-! # Troubles of the simulated world

What a simulated collaborator reports when it cannot answer: something it does not know, or a
fault that was put into it.
-/

namespace ConsumerGroups.Simulated

/-- A reason why a simulated collaborator does not answer. -/
inductive Trouble
  | unknownTopic (topic : String)
  | noLeader (topic : String) (partition : Int32)
  | unknownBroker (id : Int32)
  | noBrokers
  | brokerDown (id : Int32) (reason : String)
  | pathFailing (path reason : String)
  | refused (peers : List String)
deriving DecidableEq, Repr

namespace Trouble

def text : Trouble → String
  | unknownTopic topic => s!"unknown topic, topic={topic}"
  | noLeader topic partition => s!"no leader, topic={topic}, partition={partition}"
  | unknownBroker id => s!"unknown broker, id={id}"
  | noBrokers => "no brokers available"
  | brokerDown id reason => s!"broker {id}: {reason}"
  | pathFailing path reason => s!"{path}: {reason}"
  | refused peers => "connection refused, seed_peers=" ++ Text.quoteList peers

/-- A trouble as the whole cause of a failure. -/
def cause (trouble : Trouble) : Cause := [trouble.text]

end Trouble

end ConsumerGroups.Simulated
