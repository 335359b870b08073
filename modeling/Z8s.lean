import Z8s.Netmux.Proofs.AttachmentsProofs
import Z8s.Pods.Proofs.AddressesProofs
import Z8s.Pods.Proofs.SpawnProofs
import Z8s.Cri.Proofs.ExecProofs
import Z8s.Reaping.Proofs.ReapersProofs
import Z8s.Api.Proofs.RoundTripProofs
import Z8s.Compute.Proofs.OwnershipProofs
import Z8s.Compute.Proofs.ScaleProofs
import Z8s.Compute.Proofs.ConcurrentProofs
import Z8s.Storage.Proofs.HandlersProofs
import Z8s.Network.Proofs.RemoveProofs
import Z8s.Api.Proofs.PatchesProofs
import Z8s.Cri.Proofs.LayersProofs
import Z8s.Cri.Proofs.OciProofs
import Z8s.Cri.Proofs.RootfsProofs
import Z8s.Network.Proofs.VNetProofs
import Z8s.Network.Proofs.NetworkPolicyProofs
import Z8s.Control.Proofs.NamespaceProofs
import Z8s.Manifest.Proofs.WatcherProofs
import Z8s.Netmux.Proofs.ResolveProofs
import Z8s.Network.Proofs.IngressProofs
import Z8s.Api.Proofs.IngressesProofs
import Z8s.Compute.Proofs.SpecBuilderProofs
import Z8s.Cri.Proofs.VolumesProofs
import Z8s.Netmux.Proofs.ReplyProofs
import Z8s.Compute.Proofs.CommandLineProofs
import Z8s.Scheduler.Proofs.RunOnceProofs
import Z8s.Api.Proofs.PodsProofs
import Z8s.Api.Proofs.DeploymentsProofs
import Z8s.Network.Proofs.IsolationProofs
import Z8s.Pods.Proofs.StoppingProofs
import Z8s.Scheduler.Proofs.StartPodProofs
import Z8s.Netmux.Proofs.SubnetsProofs
import Z8s.Netmux.Proofs.GatewayProofs
import Z8s.Netmux.Proofs.VethProofs
import Z8s.Cri.Proofs.ExecParamsProofs
import Z8s.Api.Proofs.LabelSelectorsProofs
import Z8s.Storage.Proofs.MatchingProofs
import Z8s.Api.Proofs.SubnetsProofs
import Z8s.Network.Proofs.IpBlocksProofs
import Z8s.Network.Proofs.TargetPortsProofs
import Z8s.Compute.Proofs.VolumeFilesProofs
import Z8s.Netmux.Proofs.NamesProofs
import Z8s.Cri.Proofs.ElfProofs
