import Dataflow.Balance.SpanningTree
import Dataflow.Ratio

namespace Dataflow

/-- A cycle of channels through a reference channel, walked from the consumer of the reference
channel back to its producer across it. The ratio is what the reference channel receives over what
it delivers. -/
structure Inconsistency where
  cycle : List Channel
  ratio : Ratio
  reference : Channel

namespace Inconsistency

/-- The report of an inconsistency, line by line. The parts of the ratio are written unless they are
one. -/
def report (evidence : Inconsistency) (g : Graph) : Except Failure String := do
  let ratio := evidence.ratio
  let input ← if ratio.denominator.isOne then pure []
    else do pure ["IN: " ++ (← ratio.denominator.render)]
  let output ← if ratio.numerator.isOne then pure []
    else do pure ["OUT: " ++ (← ratio.numerator.render)]
  return "\n".intercalate <|
    "This undirected cycle has a problem:" ::
      (evidence.cycle.map g.channelText ++ "Mismatched factors:" :: (input ++ output))

/-- The inconsistency in one line. -/
def summary (evidence : Inconsistency) : Except Failure String := do
  return s!"Inconsistency on {evidence.cycle.length}-channel cycle, OUT/IN ratio " ++
    (← evidence.ratio.render)

/-- The failure with which an inconsistency is raised. -/
def failure (evidence : Inconsistency) (g : Graph) : Except Failure Failure :=
  Failure.inconsistent <$> evidence.report g

end Inconsistency

namespace Balance

/-- Strike the links that two paths from the start have in common. -/
def dropShared : List Link → List Link → List Link × List Link
  | a :: as, b :: bs =>
    if a.channel.id = b.channel.id then dropShared as bs else (a :: as, b :: bs)
  | as, bs => (as, bs)

/-- The cycle that a channel closes with the tree: from where the paths to its ends part, out to
its target, over the channel, and back from its source. -/
def spliceCycle (tree : List Link) (reference : Channel) : List Channel :=
  let toSource := (pathToStart tree.reverse reference.source.actor).reverse
  let toTarget := (pathToStart tree.reverse reference.target.actor).reverse
  let (sourceSide, targetSide) := dropShared toSource toTarget
  targetSide.map (·.channel) ++ reference :: (sourceSide.map (·.channel)).reverse

end Balance

end Dataflow
