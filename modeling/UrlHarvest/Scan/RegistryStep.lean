import UrlHarvest.Scan.Registry

namespace UrlHarvest

-- What a host can do to a registry. An extractor that is made over one may have to fill it first.
inductive RegistryStep
  | register (scanner : Scanner) (override : Bool)
  | unregister (request : FormatRequest)
  | clear
  | loadBuiltin
  | makeExtractor

namespace Registry

-- A step that fails leaves the registry as it was, except that what loading had brought in before
-- the fault stays.
def perform (registry : Registry) : RegistryStep → Registry × Option Fault
  | .register scanner override =>
    match registry.register scanner override with
    | .ok next => (next, none)
    | .error fault => (registry, some fault)
  | .unregister request =>
    match registry.unregister request with
    | .ok next => (next, none)
    | .error fault => (registry, some fault)
  | .clear => (empty, none)
  | .loadBuiltin => registry.loadBuiltin
  | .makeExtractor => (registry.filled, none)

def performAll (registry : Registry) (steps : List RegistryStep) : Registry :=
  steps.foldl (fun registry step => (registry.perform step).1) registry

end Registry

end UrlHarvest
