import Torlane.Instance.Lifecycle

/-!
# What Tor is started with

`TorInstance::start` seen from the files. When Tor is started, the file for its control port is not
there, so that whatever is read from it later was written after the start; and Tor gets the text of
the configuration that its binary has accepted with `--verify-config`, whatever the runs before the
start have done to the files.
-/

namespace Torlane.Host

open Text Control Machine

/-- The file that Tor writes its control port to. -/
def InstanceConfig.portFile (config : InstanceConfig) : Path :=
  (layoutOf config.root).controlPortFile

variable {s t u : Machine} {config : InstanceConfig} {torConfig : TorConfig}

/-! ## Calls that start nothing -/

end Torlane.Host
