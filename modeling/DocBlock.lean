import DocBlock.Http.Client
import DocBlock.Main
import DocBlock.Proofs.Attachment
import DocBlock.Proofs.Coverage
import DocBlock.Proofs.Decoding
import DocBlock.Proofs.Extent
import DocBlock.Proofs.Failure
import DocBlock.Proofs.Identifier
import DocBlock.Proofs.LineEnding.Functions
import DocBlock.Proofs.Location
import DocBlock.Proofs.Reply
import DocBlock.Proofs.Source
import DocBlock.Proofs.Nesting
import DocBlock.Proofs.Listing
import DocBlock.Proofs.Site
import DocBlock.Proofs.Tagging
import DocBlock.Proofs.Mark
import DocBlock.Proofs.JoinedType
import DocBlock.Proofs.Selection
import DocBlock.Proofs.Lines
import DocBlock.Proofs.Request
import DocBlock.Proofs.Complaint
