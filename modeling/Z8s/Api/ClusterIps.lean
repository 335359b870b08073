import Z8s.Api.Services
import Z8s.Blocks.Aligned

/-!
# The range of ClusterIPs

Model of `parse_cidr` (`src/config.rs`), which reads the service CIDR from the command line, and the first calls
of `alloc_cluster_ip` on what it has read.
-/

namespace Z8s.Api

open Rust Blocks

namespace Config

/-- `parse_cidr`. The address stays as it is written, with its host bits. -/
def parseCidr (s : String) : Option Config :=
  (splitOnce '/' s).bind fun (ipStr, prefixStr) => (parseUnsigned 255 prefixStr).bind fun prefixLen =>
    if h : prefixLen > 32 then none
    else ((splitChar '.' ipStr).mapM (parseUnsigned 255)).bind fun
      | [a, b, c, d] => some ⟨Ipv4Addr.new a b c d, ⟨prefixLen, by omega⟩⟩
      | _ => none

def clusterIps (prof : Profile) (cfg : Config) : (n counter : Nat) → Except Fault (List String)
  | 0, _ => .ok []
  | n + 1, counter =>
    match cfg.allocClusterIp prof counter with
    | .ok (ip, counter) => (cfg.clusterIps prof n counter).map (ip :: ·)
    | .error fault => .error fault

def firstCounter : Nat := ServiceState.init.ipCounter

end Config

/-- A service CIDR from the command line, with a prefix that leaves room for hosts. -/
structure ServiceRange where
  text : String
  config : Config
  parsed : Config.parseCidr text = some config
  one_le : 1 ≤ config.serviceCidrPrefix.val
  le_thirty : config.serviceCidrPrefix.val ≤ 30

/-- The first `n` calls return different addresses of the CIDR, neither its first nor its last one. -/
def ServiceRange.Covers (range : ServiceRange) (prof : Profile) (n : Nat) : Prop :=
  ∃ ips : List Ipv4Addr,
    range.config.clusterIps prof n Config.firstCounter = .ok (ips.map dotted) ∧ ips.Nodup ∧
      ∀ ip ∈ ips, SameBlock range.config.hostBits range.config.serviceCidrBase ip ∧
        ip ≠ first range.config.hostBits range.config.serviceCidrBase ∧
        ip ≠ last range.config.hostBits range.config.serviceCidrBase

end Z8s.Api
