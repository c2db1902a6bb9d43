import Provision.Cluster.VersionText
import Provision.CommandLine.Footprint
import Provision.Main
import Provision.Proofs.Deployment.FailedRuns
import Provision.Proofs.Deployment.KeptProperties
import Provision.Proofs.Deployment.Likeness
import Provision.Proofs.Deployment.Parameters
import Provision.Proofs.Deployment.Requirements
import Provision.Proofs.Deployment.Revision
import Provision.Proofs.EmptySubnet.Names
import Provision.Proofs.EmptySubnet.OnePass
import Provision.Proofs.Settings.RoundTrip
import Provision.Proofs.EmptySubnet.Transparency
import Provision.Proofs.Files.Reach
import Provision.Proofs.Deployment.Placement
import Provision.Proofs.Json.Lookup
import Provision.Proofs.Deployment.ParameterValues
import Provision.Proofs.Deployment.Authority
import Provision.Proofs.Deployment.History
import Provision.Proofs.Deployment.OutputDirectory
import Provision.Proofs.Deployment.PoolNames
import Provision.Proofs.Deployment.References
import Provision.Proofs.Deployment.AuthorityFiles
import Provision.Proofs.Deployment.Flavours
import Provision.Proofs.Deployment.Formatting
import Provision.Proofs.Deployment.FailingStages
import Provision.Proofs.Deployment.WrittenFiles
import Provision.Proofs.Deployment.Languages
import Provision.Proofs.Cluster.Overrides
import Provision.Proofs.Cluster.Subnet
import Provision.Proofs.Deployment.ControlPlane
import Provision.Proofs.CommandLine.Requests
