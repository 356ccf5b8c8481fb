import MemoFlow.Session.Basic

/-!
# Counters by name

* **`Report`**: counters by their names;
* `CacheStats.report`, `PipelineStats.report`, `Coordinator.report`, `DispatchStats.report`,
  `AccelStats.report`, `Session.evaluatorReport`: the counters of the parts.
-/

namespace MemoFlow

/-- **Counters by their names.** -/
abbrev Report : Type := List (String × Nat)

/-- The counters of a cache. -/
def CacheStats.report (s : CacheStats) : Report :=
  [("hits", s.hits), ("misses", s.misses), ("evictions", s.evictions),
    ("expirations", s.expirations), ("sets", s.sets), ("invalidations", s.invalidations),
    ("bypasses", s.bypasses), ("rejected", s.rejected)]

/-- The counters of pipelines. -/
def PipelineStats.report (s : PipelineStats) : Report :=
  [("runs", s.runs), ("completed", s.completed), ("failed", s.failed), ("executed", s.executed),
    ("memo_hits", s.reused)]

/-- The counters of blocks and of their pool; some only when they are asked for. -/
def Coordinator.report {τ : Type} (c : Coordinator τ) (peak executed : Bool) : Report :=
  [("blocks", c.stats.blocks), ("branches", c.stats.branches), ("failed", c.stats.failed),
    ("cancelled", c.stats.cancelled), ("cache_hits", c.stats.reused),
    ("last_workers", c.stats.lastWorkers), ("threads", c.pool.active),
    ("spawned", c.pool.spawned)] ++
    (if peak then [("peak", c.stats.peak)] else []) ++
    if executed then [("executed", c.pool.executed)] else []

/-- The counters of tensor operations that are not those of an engine. -/
def DispatchStats.report (s : DispatchStats) : Report :=
  [("ops", s.ops), ("cache_hits", s.cacheHits), ("fallbacks", s.fallbacks),
    ("migrations", s.migrations)]

/-- The counters of calls. -/
def AccelStats.report (s : AccelStats) : Report :=
  [("calls", s.calls), ("compiled", s.compiled), ("cache_hits", s.cacheHits),
    ("failures", s.failures), ("fallbacks", s.fallbacks)]

/-- The counters of the evaluator. -/
def Session.evaluatorReport (s : Session) : Report :=
  [("parses", s.parses), ("executions", s.executions)]

end MemoFlow
