import Delve.Brain.Basic
/-!
# Trials

A single task or a whole brain, tried out on a scene of its own without a turn order. A task on
trial is ticked directly, a brain is evaluated once.
-/

namespace Delve

inductive Trial where
  | task (task : Task)
  | brain (brain : Brain)

namespace Trial

def tick : Trial → Scene → Except Fault (Step Trial Scene)
  | task t, s => do
    let r ← t.tick s
    return ⟨r.status, task r.state, r.context⟩
  | brain b, s => do
    let r ← b.run brainRepertoire s
    return ⟨r.status, brain r.state, r.context⟩

def reset : Trial → Trial
  | task t => task t.rewind
  | brain b => brain (b.reset brainRepertoire)

end Trial

end Delve
