import Watershed.Clustering.EdgeList
import Watershed.Main
import Watershed.Tool.FileTree
import Watershed.Proofs.DisjointSets
import Watershed.Proofs.Exclusions
import Watershed.Proofs.Partition
import Watershed.Proofs.SignedGraph
import Watershed.Proofs.Realization
import Watershed.Proofs.Greedy
import Watershed.Proofs.GreedyOrder
import Watershed.Proofs.Ranking
import Watershed.Proofs.Frontier
import Watershed.Proofs.Growth
import Watershed.Proofs.Agreement
import Watershed.Proofs.Divisive
import Watershed.Proofs.Refinement
import Watershed.Proofs.Affinity
import Watershed.Proofs.Mask
import Watershed.Proofs.MaskEntries
import Watershed.Proofs.AffinityEntries
import Watershed.Proofs.Neighbours
import Watershed.Proofs.Segmentation
import Watershed.Proofs.GroundTruth
import Watershed.Proofs.Recovery
import Watershed.Proofs.Renaming
import Watershed.Proofs.Orientation
import Watershed.Proofs.PartialAgreement
import Watershed.Proofs.Parts
import Watershed.Proofs.GrowthLocality
import Watershed.Proofs.Locality
import Watershed.Proofs.Draws
import Watershed.Proofs.Requests
import Watershed.Proofs.Regions
import Watershed.Proofs.ExplicitGraph
import Watershed.Proofs.Closure
import Watershed.Proofs.Shortening
import Watershed.Proofs.FirstAppearance
import Watershed.Proofs.Problem
import Watershed.Proofs.Separations
import Watershed.Proofs.SegmentReport
import Watershed.Proofs.EdgeReport
import Watershed.Proofs.GrowthRecord
import Watershed.Proofs.Coverage
import Watershed.Proofs.PriorityOrder
import Watershed.Proofs.CanonicalLabels
import Watershed.Proofs.Shapes
import Watershed.Proofs.Words
import Watershed.Proofs.StoredForest
import Watershed.Proofs.EdgeAddresses
