import MempoolAtlas.Api.ConditionalReads
import MempoolAtlas.Bip110.SinglePush
import MempoolAtlas.Classification.Agreement
import MempoolAtlas.Classification.BatchRuns
import MempoolAtlas.Classification.CapacityPressure
import MempoolAtlas.Classification.Evaluation
import MempoolAtlas.Classification.FairWaves
import MempoolAtlas.Classification.Recency
import MempoolAtlas.Classification.Replacement
import MempoolAtlas.Classification.Reference
import MempoolAtlas.Classification.Panics
import MempoolAtlas.Classification.PendingWindow
import MempoolAtlas.Classifiers.OpReturns
import MempoolAtlas.Classifiers.Refinement
import MempoolAtlas.Web.PolicyView
import MempoolAtlas.Web.SnapshotDistributions
import MempoolAtlas.Web.TerrainLayout
import MempoolAtlas.Web.ViewTransition
import MempoolAtlas.Model.Aggregates
import MempoolAtlas.Web.TransactionDetail
import MempoolAtlas.Web.WireAgreement
import MempoolAtlas.Rpc.BoundedResponse
import MempoolAtlas.Rpc.Correlation
import MempoolAtlas.Rpc.Decoding
import MempoolAtlas.Runtime.PublishedAgreement
import MempoolAtlas.Lib.Lru
