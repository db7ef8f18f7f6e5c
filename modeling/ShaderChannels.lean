import ShaderChannels.Binding.Session
import ShaderChannels.Disk.Tree
import ShaderChannels.Document.Issue
import ShaderChannels.Main
import ShaderChannels.Report.Exchange
import ShaderChannels.Source.History
import ShaderChannels.Proofs.Source.Gap
import ShaderChannels.Proofs.Source.Partition
import ShaderChannels.Proofs.Binding.Contribution
import ShaderChannels.Proofs.Source.Lookahead
import ShaderChannels.Proofs.Source.Position
import ShaderChannels.Proofs.Source.Stripped
import ShaderChannels.Proofs.Binding.Registry
import ShaderChannels.Proofs.Binding.Supplier
import ShaderChannels.Proofs.Binding.Measured
import ShaderChannels.Proofs.Binding.Waiting
import ShaderChannels.Proofs.Binding.Custody
import ShaderChannels.Proofs.Source.Extension
import ShaderChannels.Proofs.Source.Resumption
import ShaderChannels.Proofs.Binding.Locality
import ShaderChannels.Proofs.Source.Spelling
import ShaderChannels.Proofs.Binding.Occupancy
import ShaderChannels.Proofs.Binding.Images
import ShaderChannels.Proofs.Path.Reading
import ShaderChannels.Proofs.Path.Expansion
import ShaderChannels.Proofs.Binding.Substitution
import ShaderChannels.Proofs.Binding.Embedding
import ShaderChannels.Proofs.Binding.Faces
import ShaderChannels.Proofs.Binding.Parallel
import ShaderChannels.Proofs.Document.Entry
import ShaderChannels.Proofs.Document.Written
import ShaderChannels.Proofs.Document.Exact
import ShaderChannels.Proofs.Binding.Canonical
import ShaderChannels.Proofs.Document.Rewording
import ShaderChannels.Proofs.Binding.Rejection
import ShaderChannels.Proofs.Binding.Probing
import ShaderChannels.Proofs.Command.Verdict
import ShaderChannels.Proofs.Path.Fault
import ShaderChannels.Proofs.Document.Finding
import ShaderChannels.Proofs.Path.Absolute
import ShaderChannels.Proofs.Command.Settlement
import ShaderChannels.Proofs.Binding.Discovery
import ShaderChannels.Proofs.Binding.Growth
import ShaderChannels.Proofs.Binding.Commuting
import ShaderChannels.Proofs.Source.Directive
import ShaderChannels.Proofs.Source.Escaping
import ShaderChannels.Proofs.Source.Trivia
import ShaderChannels.Proofs.Source.Progress
import ShaderChannels.Proofs.Source.Moving
import ShaderChannels.Proofs.Source.Channel
import ShaderChannels.Proofs.Source.Integer
import ShaderChannels.Proofs.Report.Order
