import DataMigration.Config.Basic
import DataMigration.Extract.Extractor
import DataMigration.Load.Memory
import DataMigration.Load.Rate
import DataMigration.Stop
import DataMigration.Text.Case

/-!
# Connectors

The extractors for kinds of sources and the loaders for target services. Dry runs load into memory
whatever the target is.
-/

namespace DataMigration

/-- What a run writes into: the target, and the memory of a dry run. -/
structure Target (σ : Type) where
  outside : σ
  memory : Memory := []

namespace Loader

variable {σ : Type}

/-- A loader of the target, which leaves the memory alone. -/
def outside (l : Loader σ) : Loader (Target σ) where
  service := l.service
  load r upsert t := ((l.load r upsert t.outside).1,
    { t with outside := (l.load r upsert t.outside).2 })
  delete entity id t := ((l.delete entity id t.outside).1,
    { t with outside := (l.delete entity id t.outside).2 })
  connected := l.connected
  isBulk := l.isBulk
  batch := l.batch.map fun load rs entity upsert t =>
    ((load rs entity upsert t.outside).1, { t with outside := (load rs entity upsert t.outside).2 })

/-- The loader of a dry run, which leaves the target alone. -/
def inMemory (service : String) : Loader (Target σ) where
  service := service
  load r upsert t := ((Memory.load r upsert t.memory).1,
    { t with memory := (Memory.load r upsert t.memory).2 })
  delete entity id t := ((Memory.delete entity id t.memory).1,
    { t with memory := (Memory.delete entity id t.memory).2 })

/-- The loader behind a limit on requests in a second, if one is set. -/
def limited (l : Loader σ) : Option Binary64 → Except (Stop LoaderError) (Loader σ)
  | none => .ok l
  | some rate =>
    if !rate.isPositive then .ok l
    else match requestInterval? rate with
      | some _ => .ok l.throttled
      | none => .error (.standstill .panics)

end Loader

/-- Extractors by kinds of sources and loaders by names of services in lower case. -/
structure Connectors (σ : Type) where
  extractors : List (SourceType × (Source → Except ExtractionError Extractor)) := []
  loaders : Dict (Config → Except LoaderError (Loader σ)) := []

namespace Connectors

variable {σ : Type}

/-- The connectors that are always there: files in JSON and YAML. -/
def files (now : Calendar.Instant) : Connectors σ where
  extractors := [(.json, fun s => Extractor.ofFile s now), (.yaml, fun s => Extractor.ofFile s now)]

/-- Adds an extractor in place of the one for the same kind of source. -/
def withExtractor (c : Connectors σ) (type : SourceType)
    (build : Source → Except ExtractionError Extractor) : Connectors σ :=
  { c with extractors := (type, build) :: c.extractors }

/-- Adds a loader in place of the one for the same service. -/
def withLoader (c : Connectors σ) (service : String)
    (build : Config → Except LoaderError (Loader σ)) : Connectors σ :=
  { c with loaders := Dict.insert c.loaders (Text.toLower service) build }

/-- There is an extractor for a kind of source. -/
def hasExtractor (c : Connectors σ) (type : SourceType) : Bool := (c.extractors.lookup type).isSome

/-- The extractor for a source. -/
def extractor (c : Connectors σ) (s : Source) : Except ExtractionError Extractor :=
  match c.extractors.lookup s.type with
  | some build => build s
  | none => .error (.unsupported s.type)

/-- The loader for a target service. -/
def targetLoader (c : Connectors σ) (config : Config) : Except LoaderError (Loader σ) :=
  match Dict.get? c.loaders (Text.toLower config.targetService) with
  | some build => build config
  | none => .error (.unsupported config.targetService)

/-- The loader for a configuration, without the limit on requests. -/
def unlimited (c : Connectors σ) (config : Config) : Except LoaderError (Loader (Target σ)) :=
  if config.dryRun then .ok (.inMemory config.targetService)
  else (c.targetLoader config).map Loader.outside

/-- The loader for a configuration. Whether there is one is seen before the limit on requests. -/
def loader (c : Connectors σ) (config : Config) : Except (Stop LoaderError) (Loader (Target σ)) :=
  match c.unlimited config with
  | .error e => .error (.error e)
  | .ok l => l.limited config.rateLimit

end Connectors

end DataMigration
